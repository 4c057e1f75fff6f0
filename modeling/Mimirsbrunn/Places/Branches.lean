import Mimirsbrunn.Places.Founders

namespace Mimirsbrunn
open Regex Std Ancestry Greedy

namespace AdminGeoFinder

section Parents

variable {G E : Type} {finder : AdminGeoFinder G E} {fuel : Nat} {admin : Admin} {up : List Admin}

theorem chain_of_parents (h : finder.parents fuel admin = some up) :
    Chain finder.parentOf admin up := by
  induction fuel generalizing admin up with
  | zero => cases h
  | succ fuel ih =>
      rw [parents] at h
      cases hp : finder.parentOf admin with
      | none =>
          rw [hp] at h
          cases h
          exact .root hp
      | some parent =>
          rw [hp] at h
          obtain ⟨rest, hrest, rfl⟩ := Option.map_eq_some_iff.mp h
          exact .step hp (ih hrest)

theorem parents_of_chain (h : Chain finder.parentOf admin up) :
    finder.parents (up.length + 1) admin = some up := by
  induction h with
  | root h => rw [parents, h]
  | step h _ ih =>
      rw [parents, h]
      exact Option.map_eq_some_iff.mpr ⟨_, ih, rfl⟩

theorem parents_returns_iff :
    (∃ fuel up, finder.parents fuel admin = some up) ↔ ∃ up, Chain finder.parentOf admin up := by
  constructor
  · rintro ⟨fuel, up, h⟩
    exact ⟨up, chain_of_parents h⟩
  · rintro ⟨up, h⟩
    exact ⟨_, up, parents_of_chain h⟩

end Parents

variable {G E : Type} [Areal G E] {finder : AdminGeoFinder G E} {coord : Coord}
  {condition : Admin → Bool} {fuel fuel' : Nat}

def Touches (coord : Coord) (split : SplitAdmin G E) : Prop :=
  Geometry.intersects split.boundary coord = true

def Reaches (finder : AdminGeoFinder G E) (head split : SplitAdmin G E) : Prop :=
  ∃ above, Above finder.parentOf above head.admin ∧ above.id = split.admin.id

noncomputable def headsOf (finder : AdminGeoFinder G E) (coord : Coord)
    (seen : List (SplitAdmin G E)) : List (SplitAdmin G E) :=
  select (Touches coord) finder.Reaches seen

def branchOf (finder : AdminGeoFinder G E) (fuel : Nat) (head : SplitAdmin G E) :
    Option (List Admin) :=
  (finder.parents fuel head.admin).map (head.admin :: ·)

variable {seen candidates : List (SplitAdmin G E)} {visited_ids : List Text}
  {result : List (List Admin)} {split head : SplitAdmin G E}

theorem headsOf_grows (seen candidates : List (SplitAdmin G E)) :
    ∃ more, finder.headsOf coord (seen ++ candidates) = finder.headsOf coord seen ++ more :=
  select_grows seen candidates

theorem branches_iff (hvisited : ∀ id, id ∈ visited_ids ↔
      ∃ head ∈ finder.headsOf coord seen, ∃ above, Above finder.parentOf above head.admin ∧
        above.id = id) :
    finder.branches fuel coord visited_ids candidates = some result ↔
      ∃ more, finder.headsOf coord (seen ++ candidates) = finder.headsOf coord seen ++ more ∧
        List.Forall₂ (fun head branch => finder.branchOf fuel head = some branch) more result := by
  induction candidates generalizing seen visited_ids result with
  | nil =>
      simp only [branches, List.append_nil, Option.some.injEq, List.self_eq_append_right,
        exists_eq_left, List.forall₂_nil_left_iff]
      exact eq_comm
  | cons cand candidates ih =>
      have hcons : seen ++ cand :: candidates = (seen ++ [cand]) ++ candidates := by simp
      have hseen : cand.admin.id ∈ visited_ids ↔
          ∃ head ∈ finder.headsOf coord seen, finder.Reaches head cand := hvisited _
      rw [branches, hcons]
      split
      · next hc =>
        simp only [Bool.and_eq_true, Bool.not_eq_true', List.contains_eq_mem,
          decide_eq_false_iff_not] at hc
        have htake : finder.headsOf coord (seen ++ [cand]) =
            finder.headsOf coord seen ++ [cand] :=
          select_take hc.2 fun head hh hr => hc.1 (hseen.mpr ⟨head, hh, hr⟩)
        have hstep {up : List Admin} (hup : finder.parents fuel cand.admin = some up) (id : Text) :
            id ∈ visited_ids ++ up.map Admin.id ↔
              ∃ head ∈ finder.headsOf coord (seen ++ [cand]), ∃ above,
                Above finder.parentOf above head.admin ∧ above.id = id := by
          rw [List.mem_append, hvisited, htake, List.mem_map]
          simp only [List.mem_append, List.mem_singleton, or_and_right, exists_or, exists_eq_left,
            (chain_of_parents hup).above_iff]
        rw [Option.bind_eq_some_iff]
        constructor
        · rintro ⟨up, hup, hrest⟩
          obtain ⟨rest, hr, rfl⟩ := Option.map_eq_some_iff.mp hrest
          obtain ⟨more, hmore, hall⟩ := (ih (hstep hup)).mp hr
          refine ⟨cand :: more, ?_, .cons (Option.map_eq_some_iff.mpr ⟨up, hup, rfl⟩) hall⟩
          rw [hmore, htake, List.append_assoc, List.singleton_append]
        · rintro ⟨more, hmore, hall⟩
          obtain ⟨rest, hrest⟩ := headsOf_grows (seen ++ [cand]) candidates
          rw [hrest, htake, List.append_assoc, List.singleton_append] at hmore
          obtain rfl := List.append_cancel_left hmore
          obtain ⟨_, branches, hbranch, hrests, rfl⟩ := List.forall₂_cons_left_iff.mp hall
          obtain ⟨up, hup, rfl⟩ := Option.map_eq_some_iff.mp hbranch
          refine ⟨up, hup, Option.map_eq_some_iff.mpr ⟨branches, ?_, rfl⟩⟩
          exact (ih (hstep hup)).mpr ⟨rest, hrest, hrests⟩
      · next hc =>
        have hskip : finder.headsOf coord (seen ++ [cand]) = finder.headsOf coord seen := by
          refine select_skip fun htouch => ?_
          by_contra hfree
          refine hc ?_
          simp only [Bool.and_eq_true, Bool.not_eq_true', List.contains_eq_mem,
            decide_eq_false_iff_not]
          exact ⟨fun hin => hfree (hseen.mp hin), htouch⟩
        rw [← hskip]
        exact ih (by rw [hskip]; exact hvisited)

section Heads

variable [Envelope E] {branch : List Admin}

noncomputable def heads (finder : AdminGeoFinder G E) (coord : Coord) (condition : Admin → Bool) :
    List (SplitAdmin G E) := finder.headsOf coord (finder.candidates coord condition)

theorem getAdminsIf_eq_mapM :
    finder.getAdminsIf fuel coord condition =
      (finder.heads coord condition).mapM (finder.branchOf fuel) := by
  have hnil : ∀ id, id ∈ ([] : List Text) ↔ ∃ head ∈ finder.headsOf coord [],
      ∃ above, Above finder.parentOf above head.admin ∧ above.id = id :=
    fun id => iff_of_false List.not_mem_nil (by rintro ⟨head, hh, _⟩; cases hh)
  refine Option.ext fun result => ?_
  rw [getAdminsIf, branches_iff hnil, Loop.mapM_iff]
  constructor
  · rintro ⟨more, hmore, hall⟩
    have hheads : finder.heads coord condition = more := hmore
    rwa [hheads]
  · exact fun hall => ⟨_, rfl, hall⟩

omit [Areal G E] in
theorem mem_candidates [Geometry G E] : split ∈ finder.candidates coord condition ↔
    split ∈ finder.rtree ∧ Envelope.containsPoint split.envelope coord = true ∧
      condition split.admin = true := by
  simp only [candidates, List.mem_mergeSort, List.mem_filter, and_assoc]

theorem head_candidate (hh : head ∈ finder.heads coord condition) :
    head ∈ finder.candidates coord condition := select_sublist.subset hh

theorem head_touches (hh : head ∈ finder.heads coord condition) : Touches coord head :=
  eligible_of_mem_select hh

def ReturnsBranches (finder : AdminGeoFinder G E) (coord : Coord) (condition : Admin → Bool)
    (result : List (List Admin)) : Prop :=
  ∃ n, ∀ fuel, n ≤ fuel → finder.getAdminsIf fuel coord condition = some result

theorem ReturnsBranches.eq_of_get (hr : finder.ReturnsBranches coord condition result)
    {other : List (List Admin)} (hget : finder.getAdminsIf fuel coord condition = some other) :
    result = other := by
  obtain ⟨n, hn⟩ := hr
  have hmax := hn (max n fuel) (Nat.le_max_left n fuel)
  rw [getAdminsIf] at hget hmax
  rw [branches_mono (Nat.le_max_right n fuel) hget] at hmax
  exact (Option.some.inj hmax).symm

theorem returns_of_chains
    (h : ∀ head ∈ finder.heads coord condition, ∃ up, Chain finder.parentOf head.admin up) :
    ∃ result, finder.ReturnsBranches coord condition result := by
  obtain ⟨n, hn⟩ := Loop.exists_bound
    (P := fun head n => ∃ up, finder.parents n head.admin = some up)
    (fun _ _ _ hle ⟨up, hup⟩ => ⟨up, parents_mono hle hup⟩)
    (fun head hh => parents_returns_iff.mpr (h head hh))
  have hbranch : ∀ head ∈ finder.heads coord condition, ∃ branch,
      finder.branchOf n head = some branch := by
    intro head hh
    obtain ⟨up, hup⟩ := hn head hh
    exact ⟨head.admin :: up, Option.map_eq_some_iff.mpr ⟨up, hup, rfl⟩⟩
  obtain ⟨result, hresult⟩ := Loop.mapM_returns hbranch
  rw [← getAdminsIf_eq_mapM] at hresult
  refine ⟨result, n, fun fuel hf => ?_⟩
  exact branches_mono hf hresult

theorem chains_of_returns (hr : finder.ReturnsBranches coord condition result)
    (hh : head ∈ finder.heads coord condition) : ∃ up, Chain finder.parentOf head.admin up := by
  obtain ⟨n, hn⟩ := hr
  have h := hn n (Nat.le_refl n)
  rw [getAdminsIf_eq_mapM] at h
  obtain ⟨_, _, hbranch⟩ := Loop.mem_of_mapM h hh
  obtain ⟨up, hup, _⟩ := Option.map_eq_some_iff.mp hbranch
  exact ⟨up, chain_of_parents hup⟩

theorem terminates_iff (finder : AdminGeoFinder G E) (coord : Coord) (condition : Admin → Bool) :
    (∃ result, finder.ReturnsBranches coord condition result) ↔
      ∀ head ∈ finder.heads coord condition, ∃ up, Chain finder.parentOf head.admin up := by
  constructor
  · rintro ⟨result, hr⟩ head hh
    exact chains_of_returns hr hh
  · exact returns_of_chains

end Heads

section Distinct

variable [Envelope E] {branch up : List Admin}

def Acyclic (finder : AdminGeoFinder G E) : Prop :=
  ∀ split ∈ finder.rtree, ¬Above finder.parentOf split.admin split.admin

omit [Envelope E] in
theorem DistinctIds.exists_chain (h : DistinctIds finder) (hacyclic : finder.Acyclic)
    (admin : Admin) : ∃ up, Chain finder.parentOf admin up := by
  have hnodes : ∀ a ∈ finder.rtree.map SplitAdmin.admin, ¬Above finder.parentOf a a := by
    intro a ha
    obtain ⟨split, hs, rfl⟩ := List.mem_map.mp ha
    exact hacyclic split hs
  refine Ancestry.exists_chain hnodes (fun a b hab => ?_) admin
  obtain ⟨_, split, hs, rfl⟩ := h.parentOf_iff.mp hab
  exact List.mem_map.mpr ⟨split, hs, rfl⟩

theorem ReturnsBranches.mem_iff (hr : finder.ReturnsBranches coord condition result) :
    branch ∈ result ↔ ∃ head ∈ finder.heads coord condition, ∃ up,
      Chain finder.parentOf head.admin up ∧ branch = head.admin :: up := by
  obtain ⟨n, hn⟩ := hr
  have h := hn n (Nat.le_refl n)
  rw [getAdminsIf_eq_mapM] at h
  constructor
  · intro hb
    obtain ⟨head, hh, hbranch⟩ := Loop.mem_source_of_mapM h hb
    obtain ⟨up, hup, rfl⟩ := Option.map_eq_some_iff.mp hbranch
    exact ⟨head, hh, up, chain_of_parents hup, rfl⟩
  · rintro ⟨head, hh, up, hup, rfl⟩
    obtain ⟨branch, hb, hbranch⟩ := Loop.mem_of_mapM h hh
    obtain ⟨up', hup', rfl⟩ := Option.map_eq_some_iff.mp hbranch
    rwa [hup.unique (chain_of_parents hup')]

theorem ReturnsBranches.heads_eq (hr : finder.ReturnsBranches coord condition result) :
    result.map List.head? = (finder.heads coord condition).map (fun head => some head.admin) := by
  obtain ⟨n, hn⟩ := hr
  have h := hn n (Nat.le_refl n)
  rw [getAdminsIf_eq_mapM] at h
  refine Loop.map_eq_of_mapM h fun head _ branch hbranch => ?_
  obtain ⟨up, _, rfl⟩ := Option.map_eq_some_iff.mp hbranch
  rfl

omit [Envelope E] in
theorem DistinctIds.reaches_iff (h : DistinctIds finder) (hs : split ∈ finder.rtree) :
    finder.Reaches head split ↔ Above finder.parentOf split.admin head.admin := by
  constructor
  · rintro ⟨above, habove, hid⟩
    have hstored := (h.reached_of_above habove).2
    rw [hid, h.stored hs] at hstored
    rwa [Option.some.inj hstored]
  · exact fun habove => ⟨split.admin, habove, rfl⟩

theorem DistinctIds.candidates_nodup (h : DistinctIds finder) :
    (finder.candidates coord condition).Nodup := by
  rw [candidates, (List.mergeSort_perm _ _).nodup_iff]
  exact ((h.nodup.of_map entryId).filter _).filter _

theorem head_or_reached (hs : split ∈ finder.candidates coord condition)
    (htouch : Touches coord split) : split ∈ finder.heads coord condition ∨
      ∃ head ∈ finder.heads coord condition,
        Before (finder.candidates coord condition) head split ∧ finder.Reaches head split :=
  selected_or_claimed hs htouch

theorem lone_head (hlone : finder.rtree = [split])
    (hs : split ∈ finder.candidates coord condition) (htouch : Touches coord split) :
    split ∈ finder.heads coord condition := by
  rcases head_or_reached hs htouch with hh | ⟨head, hh, _, _⟩
  · exact hh
  · have hmem := (mem_candidates.mp (head_candidate hh)).1
    rw [hlone] at hmem
    rwa [List.mem_singleton.mp hmem] at hh

omit [Areal G E] [Envelope E] in
theorem not_chain_of_own_parent {admin : Admin} (h : finder.parentOf admin = some admin) :
    ¬Chain finder.parentOf admin up := by
  intro hup
  have hagain := hup.unique (.step h hup)
  exact List.ne_cons_self hagain

structure Branching (finder : AdminGeoFinder G E) (coord : Coord) (condition : Admin → Bool)
    (result : List (List Admin)) : Prop where
  branch : ∀ branch ∈ result, ∃ split ∈ finder.rtree, ∃ up, branch = split.admin :: up ∧
    condition split.admin = true ∧ Geometry.intersects split.boundary coord = true ∧
    Chain finder.parentOf split.admin up
  heads : (result.map List.head?).Nodup
  covered : ∀ split ∈ finder.rtree, condition split.admin = true →
    Geometry.intersects split.boundary coord = true → ∃ branch ∈ result, split.admin ∈ branch

theorem getAdminsIf_branching [Covering G E] (h : DistinctIds finder) (hacyclic : finder.Acyclic)
    (coord : Coord) (condition : Admin → Bool) :
    ∃ result, finder.ReturnsBranches coord condition result ∧
      finder.Branching coord condition result := by
  obtain ⟨result, hr⟩ := returns_of_chains fun head _ => h.exists_chain hacyclic head.admin
  refine ⟨result, hr, ?_, ?_, ?_⟩
  · intro branch hb
    obtain ⟨head, hh, up, hup, rfl⟩ := hr.mem_iff.mp hb
    obtain ⟨hmem, _, hcond⟩ := mem_candidates.mp (head_candidate hh)
    exact ⟨head, hmem, up, rfl, hcond, head_touches hh, hup⟩
  · rw [hr.heads_eq]
    refine (List.nodup_map_iff_inj_on (h.candidates_nodup.sublist select_sublist)).mpr ?_
    intro a ha b hb hab
    exact h.split_ext (mem_candidates.mp (head_candidate ha)).1
      (mem_candidates.mp (head_candidate hb)).1 (Option.some.inj hab)
  · intro split hs hcond htouch
    have hcand : split ∈ finder.candidates coord condition :=
      mem_candidates.mpr ⟨hs, Covering.intersects (h.envelope hs) htouch, hcond⟩
    rcases head_or_reached hcand htouch with hh | ⟨head, hh, _, hreach⟩
    · obtain ⟨up, hup⟩ := h.exists_chain hacyclic split.admin
      exact ⟨_, hr.mem_iff.mpr ⟨split, hh, up, hup, rfl⟩, List.mem_cons_self⟩
    · obtain ⟨up, hup⟩ := h.exists_chain hacyclic head.admin
      refine ⟨_, hr.mem_iff.mpr ⟨head, hh, up, hup, rfl⟩, List.mem_cons_of_mem _ ?_⟩
      exact hup.above_iff.mp ((h.reaches_iff hs).mp hreach)

def StartsAtLeaves (finder : AdminGeoFinder G E) (coord : Coord) (condition : Admin → Bool) :
    Prop :=
  ∃ result, finder.ReturnsBranches coord condition result ∧ ∀ branch ∈ result, ∀ other ∈ result,
    branch ≠ other → ∀ head, branch.head? = some head → head ∉ other.tail

def PartsFirst (finder : AdminGeoFinder G E) (coord : Coord) (condition : Admin → Bool) : Prop :=
  ∀ whole ∈ finder.candidates coord condition, Touches coord whole →
    ∀ part ∈ finder.candidates coord condition, Touches coord part →
      Above finder.parentOf whole.admin part.admin →
        ∃ sooner, Before (finder.candidates coord condition) sooner whole ∧
          Touches coord sooner ∧ Above finder.parentOf whole.admin sooner.admin

theorem head_below (h : DistinctIds finder) (hs : split ∈ finder.candidates coord condition)
    (htouch : Touches coord split) : ∃ head ∈ finder.heads coord condition, head = split ∨
      (Before (finder.candidates coord condition) head split ∧
        Above finder.parentOf split.admin head.admin) := by
  rcases head_or_reached hs htouch with hh | ⟨head, hh, hsooner, hreach⟩
  · exact ⟨split, hh, .inl rfl⟩
  · exact ⟨head, hh, .inr ⟨hsooner, (h.reaches_iff (mem_candidates.mp hs).1).mp hreach⟩⟩

variable {whole part sooner : SplitAdmin G E}

theorem head_of_part (h : DistinctIds finder) (hp : part ∈ finder.candidates coord condition)
    (htouch : Touches coord part) (habove : Above finder.parentOf whole.admin part.admin) :
    ∃ head ∈ finder.heads coord condition, Above finder.parentOf whole.admin head.admin := by
  obtain ⟨head, hh, rfl | ⟨_, hup⟩⟩ := head_below h hp htouch
  · exact ⟨head, hh, habove⟩
  · exact ⟨head, hh, hup.trans habove⟩

theorem head_before (h : DistinctIds finder)
    (hbefore : Before (finder.candidates coord condition) sooner whole)
    (htouch : Touches coord sooner) (habove : Above finder.parentOf whole.admin sooner.admin) :
    ∃ head ∈ finder.heads coord condition,
      Before (finder.candidates coord condition) head whole ∧
        Above finder.parentOf whole.admin head.admin := by
  obtain ⟨head, hh, rfl | ⟨hfirst, hup⟩⟩ := head_below h hbefore.mem_left htouch
  · exact ⟨head, hh, hbefore, habove⟩
  · exact ⟨head, hh, hfirst.trans h.candidates_nodup hbefore, hup.trans habove⟩

theorem DistinctIds.returns_iff (h : DistinctIds finder) (coord : Coord)
    (condition : Admin → Bool) :
    (∃ result, finder.ReturnsBranches coord condition result) ↔
      ∀ split ∈ finder.candidates coord condition, Touches coord split →
        ∃ up, Chain finder.parentOf split.admin up := by
  constructor
  · rintro ⟨result, hr⟩ split hs htouch
    obtain ⟨head, hh, hbelow⟩ := head_below h hs htouch
    obtain ⟨up, hup⟩ := chains_of_returns hr hh
    rcases hbelow with rfl | ⟨_, habove⟩
    · exact ⟨up, hup⟩
    · exact hup.of_above habove
  · intro hends
    exact returns_of_chains fun head hh => hends head (head_candidate hh) (head_touches hh)

theorem starts_at_leaves_iff (h : DistinctIds finder) (hacyclic : finder.Acyclic) (coord : Coord)
    (condition : Admin → Bool) :
    finder.StartsAtLeaves coord condition ↔ finder.PartsFirst coord condition := by
  constructor
  · rintro ⟨result, hr, hleaves⟩ whole hw hwtouch part hp hptouch habove
    by_contra hsooner
    have hwhole : whole ∈ finder.heads coord condition := by
      obtain ⟨head, hh, rfl | ⟨hbefore, hup⟩⟩ := head_below h hw hwtouch
      · exact hh
      · exact absurd ⟨head, hbefore, head_touches hh, hup⟩ hsooner
    obtain ⟨head, hh, hup⟩ := head_of_part h hp hptouch habove
    obtain ⟨up, hchain⟩ := h.exists_chain hacyclic whole.admin
    obtain ⟨up', hchain'⟩ := h.exists_chain hacyclic head.admin
    refine hleaves _ (hr.mem_iff.mpr ⟨whole, hwhole, up, hchain, rfl⟩) _
      (hr.mem_iff.mpr ⟨head, hh, up', hchain', rfl⟩) ?_ whole.admin rfl (hchain'.above_iff.mp hup)
    intro heq
    rw [(List.cons.inj heq).1] at hup
    exact hacyclic head (mem_candidates.mp (head_candidate hh)).1 hup
  · intro hcond
    obtain ⟨result, hr⟩ := returns_of_chains fun head _ => h.exists_chain hacyclic head.admin
    refine ⟨result, hr, ?_⟩
    rintro branch hb other ho _ admin hadmin hin
    obtain ⟨whole, hw, _, _, rfl⟩ := hr.mem_iff.mp hb
    obtain ⟨part, hp, up, hchain, rfl⟩ := hr.mem_iff.mp ho
    obtain rfl := Option.some.inj hadmin
    obtain ⟨sooner, hbefore, htouch, habove⟩ := hcond whole (head_candidate hw) (head_touches hw)
      part (head_candidate hp) (head_touches hp) (hchain.above_iff.mpr hin)
    obtain ⟨head, hh, hfirst, hup⟩ := head_before h hbefore htouch habove
    exact not_claimed h.candidates_nodup hh hw hfirst
      ((h.reaches_iff (mem_candidates.mp (head_candidate hw)).1).mpr hup)

end Distinct

end AdminGeoFinder

-- A commune and a department that one INSEE code names, so that the commune is its own parent.
def ownParent : AdminGeoFinder.Call Rectangle :=
  .insert (district "admin:fr:75".toList (some .City) (some "admin:fr:75".toList)) (some square)

theorem own_parent_climbs_forever : ¬∃ result,
    (AdminGeoFinder.run (E := Rectangle) [ownParent]).ReturnsBranches ⟨5, 5⟩ (fun _ => true)
      result := by
  rintro ⟨result, hr⟩
  have hcand : ⟨square, square, district "admin:fr:75".toList (some .City)
      (some "admin:fr:75".toList)⟩ ∈ (AdminGeoFinder.run (E := Rectangle) [ownParent]).candidates
        ⟨5, 5⟩ (fun _ => true) := AdminGeoFinder.mem_candidates.mpr ⟨List.mem_cons_self, rfl, rfl⟩
  obtain ⟨up, hup⟩ := AdminGeoFinder.chains_of_returns hr
    (AdminGeoFinder.lone_head rfl hcand rfl)
  exact AdminGeoFinder.not_chain_of_own_parent rfl hup

-- A suburb that a city district is a part of: the sort visits the suburb first.
def insideOut : List (Admin × Option Rectangle) :=
  [(district "part".toList (some .CityDistrict) (some "whole".toList), some square),
    (district "whole".toList (some .Suburb) none, some square)]

def insideOutFinder : AdminGeoFinder Rectangle Rectangle := AdminGeoFinder.fromIter insideOut

theorem inside_out_distinct : insideOutFinder.DistinctIds :=
  ⟨⟨[.fromIter insideOut], .refl _, rfl⟩, by decide⟩

theorem inside_out_acyclic : insideOutFinder.Acyclic := by
  intro split hs habove
  change split ∈ [_, _] at hs
  simp only [List.mem_cons, List.not_mem_nil, or_false] at hs
  rcases hs with rfl | rfl
  · have hup : Chain insideOutFinder.parentOf (district "whole".toList (some .Suburb) none) [] :=
      .root rfl
    exact List.not_mem_nil (hup.above_iff.mp habove)
  · have hup : Chain insideOutFinder.parentOf (district "part".toList (some .CityDistrict)
        (some "whole".toList)) [district "whole".toList (some .Suburb) none] :=
      .step rfl (.root rfl)
    have heq := List.mem_singleton.mp (hup.above_iff.mp habove)
    exact absurd (congrArg Admin.id heq) (by decide)

theorem inside_out_branching : ∃ result,
    insideOutFinder.ReturnsBranches ⟨5, 5⟩ (fun _ => true) result ∧
      insideOutFinder.Branching ⟨5, 5⟩ (fun _ => true) result :=
  AdminGeoFinder.getAdminsIf_branching inside_out_distinct inside_out_acyclic ⟨5, 5⟩ _

theorem inside_out_leaves : insideOutFinder.StartsAtLeaves ⟨5, 5⟩ (fun _ => true) ↔
    insideOutFinder.PartsFirst ⟨5, 5⟩ (fun _ => true) :=
  AdminGeoFinder.starts_at_leaves_iff inside_out_distinct inside_out_acyclic ⟨5, 5⟩ _

theorem whole_indexed_twice : insideOutFinder.DistinctIds ∧ insideOutFinder.Acyclic ∧
    ¬insideOutFinder.StartsAtLeaves ⟨5, 5⟩ (fun _ => true) := by
  refine ⟨inside_out_distinct, inside_out_acyclic, ?_⟩
  rintro ⟨result, hr, hleaves⟩
  have hcand : insideOutFinder.candidates ⟨5, 5⟩ (fun _ => true) = insideOutFinder.rtree :=
    List.mergeSort_of_pairwise (by decide)
  have hget : insideOutFinder.getAdminsIf 3 ⟨5, 5⟩ (fun _ => true) =
      some [[district "whole".toList (some .Suburb) none],
        [district "part".toList (some .CityDistrict) (some "whole".toList),
          district "whole".toList (some .Suburb) none]] := by
    rw [AdminGeoFinder.getAdminsIf, hcand]
    rfl
  obtain rfl := hr.eq_of_get hget
  exact hleaves _ List.mem_cons_self _ (List.mem_cons_of_mem _ List.mem_cons_self)
    (fun h => absurd (congrArg List.length h) (by decide)) _ rfl List.mem_cons_self

end Mimirsbrunn
