import Mathlib.Logic.Function.Basic
import Mimirsbrunn.Library.Client

namespace Service

variable {Req Resp S α ι : Type} [DecidableEq ι]

-- Several clients of one store, one served request at a time, as far as the guard lets it through.
def CrowdNext (V : Service Req Resp S) (G : S × (ι → Client Req Resp α) → ι → Req → Prop)
    (p q : S × (ι → Client Req Resp α)) : Prop :=
  ∃ j r c', G p j r ∧ V.Step p.1 (p.2 j) r (V.serve r p.1).2 (V.serve r p.1).1 c' ∧
    q = ((V.serve r p.1).1, Function.update p.2 j c')

def CrowdReach (V : Service Req Resp S) (G : S × (ι → Client Req Resp α) → ι → Req → Prop) :
    S × (ι → Client Req Resp α) → S × (ι → Client Req Resp α) → Prop :=
  Relation.ReflTransGen (V.CrowdNext G)

theorem crowd_invariant {V : Service Req Resp S}
    {G : S × (ι → Client Req Resp α) → ι → Req → Prop} {p q : S × (ι → Client Req Resp α)}
    (I : S × (ι → Client Req Resp α) → Prop) (hp : I p)
    (hstep : ∀ p q, I p → V.CrowdNext G p q → I q) (h : V.CrowdReach G p q) : I q := by
  induction h with
  | refl => exact hp
  | tail _ hn ih => exact hstep _ _ ih hn

theorem crowd_mono {V : Service Req Resp S}
    {G G' : S × (ι → Client Req Resp α) → ι → Req → Prop} {p q : S × (ι → Client Req Resp α)}
    (hG : ∀ p j r, G p j r → G' p j r) (h : V.CrowdReach G p q) : V.CrowdReach G' p q := by
  induction h with
  | refl => exact .refl
  | tail _ hn ih =>
      obtain ⟨j, r, c', hg, hs⟩ := hn
      exact ih.tail ⟨j, r, c', hG _ _ _ hg, hs⟩

def ThrongNext (V : Service Req Resp S) (p q : S × (ι → Client Req Resp α)) : Prop :=
  ∃ j r x c', V.Step p.1 (p.2 j) r x q.1 c' ∧ q.2 = Function.update p.2 j c'

def ThrongReach (V : Service Req Resp S) :
    S × (ι → Client Req Resp α) → S × (ι → Client Req Resp α) → Prop :=
  Relation.ReflTransGen V.ThrongNext

theorem throng_of_crowd {V : Service Req Resp S}
    {G : S × (ι → Client Req Resp α) → ι → Req → Prop} {p q : S × (ι → Client Req Resp α)}
    (h : V.CrowdReach G p q) : V.ThrongReach p q := by
  refine Relation.ReflTransGen.mono ?_ _ _ h
  rintro p q ⟨j, r, c', _, hs, rfl⟩
  exact ⟨j, r, _, c', hs, rfl⟩

theorem throng_invariant {V : Service Req Resp S} (I : S → Prop) (J : ι → Client Req Resp α → Prop)
    (hstep : ∀ j s c r x s' c', I s → J j c → V.Step s c r x s' c' → I s' ∧ J j c')
    {p q : S × (ι → Client Req Resp α)} (h : V.ThrongReach p q) (hI : I p.1)
    (hJ : ∀ j, J j (p.2 j)) : I q.1 ∧ ∀ j, J j (q.2 j) := by
  induction h with
  | refl => exact ⟨hI, hJ⟩
  | tail _ hn ih =>
      obtain ⟨j, r, x, c', hs, hq⟩ := hn
      obtain ⟨hI', hc'⟩ := hstep j _ _ _ _ _ _ ih.1 (ih.2 j) hs
      refine ⟨hI', fun k => ?_⟩
      rw [hq]
      rcases eq_or_ne k j with rfl | hk
      · rwa [Function.update_self]
      · rw [Function.update_of_ne hk]
        exact ih.2 k

theorem throng_of_reach {V : Service Req Resp S} {j : ι} {s : S} {f : ι → Client Req Resp α}
    {q : S × Client Req Resp α} (h : V.Reach (s, f j) q) :
    V.ThrongReach (s, f) (q.1, Function.update f j q.2) := by
  induction h with
  | refl =>
      rw [Function.update_eq_self]
      exact .refl
  | @tail q q' _ hn ih =>
      obtain ⟨r, x, hs⟩ := hn
      refine ih.tail ⟨j, r, x, q'.2, ?_, (Function.update_idem ..).symm⟩
      show V.Step q.1 (Function.update f j q.2 j) r x q'.1 q'.2
      rwa [Function.update_self]

-- Stores that look the same to `k` answer its requests alike and stay the same to it, and the
-- requests of the others change nothing it sees.
structure Apart (V : Service Req Resp S) (own : ι → Req → Prop) (same : ι → S → S → Prop) :
    Prop where
  refl : ∀ k s, same k s s
  serve : ∀ {k r s t}, own k r → same k s t →
    same k (V.serve r s).1 (V.serve r t).1 ∧ (V.serve r s).2 = (V.serve r t).2
  cut : ∀ {k r s s' t}, own k r → same k s t → V.cut r s s' → ∃ t', V.cut r t t' ∧ same k s' t'
  foreign : ∀ {j k r s s' t x}, j ≠ k → own j r → V.Answer r s s' x → same k s t → same k s' t
  spilled : ∀ {j k r s s' t}, j ≠ k → own j r → V.cut r s s' → same k s t → same k s' t

namespace Apart

variable {V : Service Req Resp S} {own : ι → Req → Prop} {same : ι → S → S → Prop} {j k : ι}
  {s s' t : S} {r : Req} {x : Resp} {c c' : Client Req Resp α}

omit [DecidableEq ι] in
theorem answer (hV : V.Apart own same) (hr : own k r) (hst : same k s t) (h : V.Answer r s s' x) :
    ∃ t', V.Answer r t t' x ∧ same k s' t' := by
  cases h with
  | served =>
      obtain ⟨hsame, hx⟩ := hV.serve hr hst
      rw [hx]
      exact ⟨_, .served, hsame⟩
  | broken hc hf =>
      obtain ⟨t', hc', hsame⟩ := hV.cut hr hst hc
      exact ⟨t', .broken hc' hf, hsame⟩

omit [DecidableEq ι] in
theorem spill {rs : List Req} (hV : V.Apart own same) (hrs : ∀ r ∈ rs, own k r)
    (hst : same k s t) (h : V.Spill rs s s') : ∃ t', V.Spill rs t t' ∧ same k s' t' := by
  induction h generalizing t with
  | nil => exact ⟨t, .nil, hst⟩
  | @cut s s₁ s₂ r pre post hc _ ih =>
      obtain ⟨t₁, hc', hst₁⟩ := hV.cut (hrs r (by simp)) hst hc
      have hrest : ∀ q ∈ pre ++ post, own k q := by
        intro q hq
        apply hrs
        simp only [List.mem_append, List.mem_cons] at hq ⊢
        exact hq.imp_right Or.inr
      obtain ⟨t₂, hspill, hst₂⟩ := ih hrest hst₁
      exact ⟨t₂, .cut hc' hspill, hst₂⟩

omit [DecidableEq ι] in
theorem step (hV : V.Apart own same) (hc : c.Sends (own k)) (hst : same k s t)
    (h : V.Step s c r x s' c') : ∃ t', V.Step t c r x t' c' ∧ same k s' t' := by
  cases h with
  | call ha =>
      obtain ⟨t', ha', hst'⟩ := hV.answer hc hst ha
      exact ⟨t', .call ha', hst'⟩
  | fan hw ha hs =>
      obtain ⟨t₁, ha', hst₁⟩ := hV.answer (hc _ (by simp)) hst ha
      obtain ⟨t₂, hs', hst₂⟩ := hV.spill (fun q hq => hc q (mem_window hq)) hst₁ hs
      exact ⟨t₂, .fan hw ha' hs', hst₂⟩

omit [DecidableEq ι] in
theorem unseen (hV : V.Apart own same) (hjk : j ≠ k) (hc : c.Sends (own j)) (hst : same k s t)
    (h : V.Step s c r x s' c') : same k s' t := by
  cases h with
  | call ha => exact hV.foreign hjk hc ha hst
  | fan hw ha hs =>
      refine hs.invariant (same k · t) (fun q hq u u' hcut hu => ?_)
        (hV.foreign hjk (hc _ (by simp)) ha hst)
      exact hV.spilled hjk (hc q (mem_window hq)) hcut hu

end Apart

theorem throng_alone {V : Service Req Resp S} {own : ι → Req → Prop} {same : ι → S → S → Prop}
    (hV : V.Apart own same) (J : ι → Client Req Resp α → Prop)
    (hsends : ∀ k c, J k c → c.Sends (own k))
    (hstep : ∀ k s c r x s' c', J k c → V.Step s c r x s' c' → J k c')
    {p q : S × (ι → Client Req Resp α)} (h : V.ThrongReach p q) (hJ : ∀ k, J k (p.2 k)) (k : ι) :
    ∃ t, V.Reach (p.1, p.2 k) (t, q.2 k) ∧ same k q.1 t := by
  have hall : (∀ k, J k (q.2 k)) ∧ ∀ k, ∃ t, V.Reach (p.1, p.2 k) (t, q.2 k) ∧ same k q.1 t := by
    induction h with
    | refl => exact ⟨hJ, fun k => ⟨p.1, .refl, hV.refl k p.1⟩⟩
    | @tail q q' _ hn ih =>
        obtain ⟨j, r, x, c', hs, hq⟩ := hn
        obtain ⟨hclients, halone⟩ := ih
        refine ⟨fun k => ?_, fun k => ?_⟩ <;> rw [hq] <;> rcases eq_or_ne k j with rfl | hk
        · rw [Function.update_self]
          exact hstep k _ _ _ _ _ _ (hclients k) hs
        · rw [Function.update_of_ne hk]
          exact hclients k
        · obtain ⟨t, hreach, hst⟩ := halone k
          obtain ⟨t', hs', hst'⟩ := hV.step (hsends k _ (hclients k)) hst hs
          rw [Function.update_self]
          exact ⟨t', hreach.tail ⟨r, x, hs'⟩, hst'⟩
        · obtain ⟨t, hreach, hst⟩ := halone k
          rw [Function.update_of_ne hk]
          exact ⟨t, hreach, hV.unseen (Ne.symm hk) (hsends j _ (hclients j)) hst hs⟩
  exact hall.2 k

def advance (V : Service Req Resp S) (i : Nat) (s : S) :
    Client Req Resp α → Option (Req × Client Req Resp α)
  | .done _ => none
  | .call r k => some (r, k (V.serve r s).2)
  | .fan w ok pending answers k =>
      match pending[i]? with
      | some r =>
          let x := (V.serve r s).2
          if i < w ∧ ok x = true then
            some (r, .resume w ok true (pending.eraseIdx i) (answers ++ [x]) k)
          else none
      | none => none

theorem advance_step {V : Service Req Resp S} {i : Nat} {s : S} {r : Req}
    {c c' : Client Req Resp α} (h : V.advance i s c = some (r, c')) :
    V.Step s c r (V.serve r s).2 (V.serve r s).1 c' := by
  cases c with
  | done a => simp [advance] at h
  | call r k =>
      simp only [advance, Option.some.injEq, Prod.mk.injEq] at h
      obtain ⟨rfl, rfl⟩ := h
      exact .call .served
  | fan w ok pending answers k =>
      simp only [advance] at h
      split at h
      · next r hr =>
        split at h
        · next hw =>
          simp only [Option.some.injEq, Prod.mk.injEq] at h
          obtain ⟨rfl, rfl⟩ := h
          obtain ⟨hi, hr⟩ := List.getElem?_eq_some_iff.mp hr
          have hp : pending = pending.take i ++ r :: pending.drop (i + 1) := by
            rw [← hr, List.getElem_cons_drop, List.take_append_drop]
          rw [List.eraseIdx_eq_take_drop_succ]
          have hstep : V.Step s
              (.fan w ok (pending.take i ++ r :: pending.drop (i + 1)) answers k) r
              (V.serve r s).2 (V.serve r s).1 _ :=
            .fan (by rw [List.length_take]; omega) .served (by rw [if_pos hw.2]; exact .nil)
          rwa [← hp, hw.2] at hstep
        · simp at h
      · simp at h

def follow (V : Service Req Resp S) : List Nat → S → Client Req Resp α → Option (S × α)
  | _, s, .done a => some (s, a)
  | [], _, .call .. => none
  | [], _, .fan .. => none
  | i :: schedule, s, c =>
      match V.advance i s c with
      | some (r, c') => follow V schedule (V.serve r s).1 c'
      | none => none

theorem follow_reach {V : Service Req Resp S} {schedule : List Nat} {s s' : S}
    {c : Client Req Resp α} {a : α} (h : V.follow schedule s c = some (s', a)) :
    V.Reach (s, c) (s', .done a) := by
  fun_induction follow V schedule s c with
  | case1 _ s b =>
      cases h
      exact .refl
  | case2 => cases h
  | case3 => cases h
  | case4 i schedule s c _ r c' hadv ih => exact .head ⟨r, _, advance_step hadv⟩ (ih h)
  | case5 => cases h

def drive (V : Service Req Resp S) (guard : S × (ι → Client Req Resp α) → ι → Req → Bool) :
    List (ι × Nat) → S × (ι → Client Req Resp α) → Option (S × (ι → Client Req Resp α))
  | [], p => some p
  | (j, i) :: schedule, p =>
      match V.advance i p.1 (p.2 j) with
      | some (r, c') =>
          if guard p j r then
            drive V guard schedule ((V.serve r p.1).1, Function.update p.2 j c')
          else none
      | none => none

theorem drive_reach {V : Service Req Resp S}
    {guard : S × (ι → Client Req Resp α) → ι → Req → Bool} {schedule : List (ι × Nat)}
    {p q : S × (ι → Client Req Resp α)} (h : V.drive guard schedule p = some q) :
    V.CrowdReach (fun p j r => guard p j r = true) p q := by
  induction schedule generalizing p with
  | nil => obtain rfl := Option.some.inj h; exact .refl
  | cons a schedule ih =>
      obtain ⟨j, i⟩ := a
      simp only [drive] at h
      split at h
      · next r c' ha =>
        split at h
        · next hg => exact .head ⟨j, r, c', hg, advance_step ha, rfl⟩ (ih h)
        · simp at h
      · simp at h

end Service
