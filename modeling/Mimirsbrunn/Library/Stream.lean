import Mathlib.Data.List.Perm.Basic
import Mimirsbrunn.Library.Client

-- An order in which a stream with `w` slots may answer its pending requests.
inductive Windowed {α : Type} (w : Nat) : List α → List α → Prop
  | nil : Windowed w [] []
  | pick {pre post order : List α} {r : α} :
      pre.length < w → Windowed w (pre ++ post) order → Windowed w (pre ++ r :: post) (r :: order)

namespace Windowed

variable {α β : Type} {w : Nat} {pending order : List α}

theorem perm (h : Windowed w pending order) : order.Perm pending := by
  induction h with
  | nil => exact .nil
  | pick _ _ ih => exact (ih.cons _).trans List.perm_middle.symm

theorem one (h : Windowed 1 pending order) : order = pending := by
  induction h with
  | nil => rfl
  | pick hlt _ ih =>
      obtain rfl := List.eq_nil_of_length_eq_zero (Nat.lt_one_iff.mp hlt)
      rw [ih, List.nil_append, List.nil_append]

theorem same (hw : 0 < w) (pending : List α) : Windowed w pending pending := by
  induction pending with
  | nil => exact .nil
  | cons r pending ih => exact .pick (show ([] : List α).length < w from hw) ih

theorem delay (hw : 2 ≤ w) (pre : List α) (r : α) (post : List α) :
    Windowed w (pre ++ r :: post) (pre ++ (post ++ [r])) := by
  induction pre with
  | cons q pre ih => exact .pick (show ([] : List α).length < w by simp; omega) ih
  | nil =>
      induction post with
      | nil => exact same (by omega) _
      | cons q post ih => exact .pick (show [r].length < w from hw) ih

theorem map (f : α → β) (h : Windowed w pending order) :
    Windowed w (pending.map f) (order.map f) := by
  induction h with
  | nil => exact .nil
  | pick hlt _ ih =>
      rw [List.map_append] at ih
      rw [List.map_append, List.map_cons, List.map_cons]
      exact .pick (by rwa [List.length_map]) ih

theorem of_map {f : α → β} {xs : List α} {ys : List β} (h : Windowed w (xs.map f) ys) :
    ∃ order, Windowed w xs order ∧ ys = order.map f := by
  generalize he : xs.map f = zs at h
  induction h generalizing xs with
  | nil =>
      obtain rfl := List.map_eq_nil_iff.mp he
      exact ⟨[], .nil, rfl⟩
  | pick hlt _ ih =>
      obtain ⟨pre, rest, rfl, rfl, hrest⟩ := List.map_eq_append_iff.mp he
      obtain ⟨r, post, rfl, rfl, rfl⟩ := List.map_eq_cons_iff.mp hrest
      obtain ⟨order, ho, rfl⟩ := ih List.map_append
      exact ⟨r :: order, .pick (by rwa [List.length_map] at hlt) ho, rfl⟩

end Windowed

namespace Service

variable {Req Resp S α β : Type} {V : Service Req Resp S} {s s' : S}

inductive Trace (V : Service Req Resp S) : S → List Req → List Resp → S → Prop
  | nil {s : S} : Trace V s [] [] s
  | cons {s t s' : S} {r : Req} {x : Resp} {rs : List Req} {xs : List Resp} :
      V.Answer r s t x → Trace V t rs xs s' → Trace V s (r :: rs) (x :: xs) s'

theorem reach_bind {c : Client Req Resp α} {k : α → Client Req Resp β} {b : β}
    (h : V.Reach (s, c.bind k) (s', .done b)) :
    ∃ t a, V.Reach (s, c) (t, .done a) ∧ V.Reach (t, k a) (s', .done b) := by
  generalize hp : (s, c.bind k) = p at h
  induction h using Relation.ReflTransGen.head_induction_on generalizing s c with
  | refl =>
      obtain ⟨rfl, hc⟩ := Prod.mk.inj hp
      cases c with
      | done a =>
          have hk : k a = .done b := hc
          exact ⟨s, a, .refl, hk ▸ .refl⟩
      | call r k' => cases hc
      | fan w ok pending answers k' => cases hc
  | @head p q hstep hrest ih =>
      obtain rfl := hp
      obtain ⟨r, x, hs⟩ := hstep
      obtain ⟨t, q⟩ := q
      cases c with
      | done a => exact ⟨s, a, .refl, .head ⟨r, x, hs⟩ hrest⟩
      | call r' k' =>
          obtain ⟨rfl, rfl, ha⟩ := step_call hs
          obtain ⟨u, a, hu, ha'⟩ := ih rfl
          exact ⟨u, a, .head ⟨r, x, .call ha⟩ hu, ha'⟩
      | fan w ok pending answers k' =>
          obtain ⟨pre, post, u, rfl, hw, ha, hspill, rfl⟩ := step_fan hs
          obtain ⟨v, a, hv, ha'⟩ := ih (by rw [Client.resume_bind])
          exact ⟨v, a, .head ⟨r, x, .fan hw ha hspill⟩ hv, ha'⟩

theorem reach_done_iff {a b : α} : V.Reach (s, .done a) (s', .done b) ↔ s' = s ∧ b = a := by
  constructor
  · intro h
    simpa using reach_done h
  · rintro ⟨rfl, rfl⟩
    exact .refl

theorem reach_call_iff (hV : ∀ r x, ¬ V.fault r x) {r : Req} {k : Resp → Client Req Resp α}
    {a : α} : V.Reach (s, .call r k) (s', .done a) ↔
      V.Reach ((V.serve r s).1, k (V.serve r s).2) (s', .done a) := by
  constructor
  · intro h
    obtain ⟨x, t, ha, hk⟩ := reach_call h
    cases ha with
    | served => exact hk
    | broken _ hf => exact absurd hf (hV r x)
  · exact reach_served

theorem step_bind {c c' : Client Req Resp α} (k : α → Client Req Resp β) {r : Req} {x : Resp}
    (h : V.Step s c r x s' c') : V.Step s (c.bind k) r x s' (c'.bind k) := by
  cases h with
  | call ha => exact .call ha
  | fan hw ha hs =>
      rw [Client.resume_bind]
      exact .fan hw ha hs

theorem bind_reach {c : Client Req Resp α} {k : α → Client Req Resp β} {a : α} {t : S}
    {q : S × Client Req Resp β} (h : V.Reach (s, c) (t, .done a)) (hk : V.Reach (t, k a) q) :
    V.Reach (s, c.bind k) q := by
  generalize hp : (s, c) = p at h
  induction h using Relation.ReflTransGen.head_induction_on generalizing s c with
  | refl =>
      obtain ⟨rfl, rfl⟩ := Prod.mk.inj hp
      exact hk
  | @head p q hstep _ ih =>
      obtain rfl := hp
      obtain ⟨r, x, hs⟩ := hstep
      exact .head ⟨r, x, step_bind k hs⟩ (ih rfl)

theorem reach_resume {w : Nat} {ok : Resp → Bool} {good : Bool} {pending : List Req}
    {answers : List Resp} {k : List Resp → Client Req Resp α} {a : α}
    (h : V.Reach (s, .resume w ok good pending answers k) (s', .done a)) :
    ∃ xs t, V.Reach (t, k (answers ++ xs)) (s', .done a) ∧
      ((good = false ∨ ∃ x ∈ xs, ok x = false) ∨
        ∃ order, Windowed w pending order ∧ V.Trace s order xs t) := by
  induction hn : pending.length generalizing s good pending answers with
  | zero =>
      obtain rfl := List.eq_nil_of_length_eq_zero hn
      refine ⟨[], s, ?_, .inr ⟨[], .nil, .nil⟩⟩
      simpa [Client.resume] using h
  | succ n ih =>
      cases good with
      | false => exact ⟨[], s, by simpa [Client.resume] using h, .inl (.inl rfl)⟩
      | true =>
          have hne : pending.isEmpty = false := by cases pending <;> simp_all
          rw [Client.resume, hne] at h
          rcases Relation.ReflTransGen.cases_head h with he | ⟨⟨t, c⟩, ⟨r, x, hs⟩, hrest⟩
          · cases he
          · obtain ⟨pre, post, u, rfl, hw, ha, hspill, rfl⟩ := step_fan hs
            obtain ⟨xs, v, hk, hxs⟩ := ih hrest (by simp at hn ⊢; omega)
            refine ⟨x :: xs, v, by simpa using hk, ?_⟩
            rcases hxs with (hx | ⟨y, hy, hok⟩) | ⟨order, ho, htrace⟩
            · exact .inl (.inr ⟨x, List.mem_cons_self, hx⟩)
            · exact .inl (.inr ⟨y, List.mem_cons_of_mem _ hy, hok⟩)
            · cases hx : ok x with
              | false => exact .inl (.inr ⟨x, List.mem_cons_self, hx⟩)
              | true =>
                  rw [hx, if_pos rfl] at hspill
                  obtain rfl := spill_nil hspill
                  exact .inr ⟨r :: order, .pick hw ho, .cons ha htrace⟩

theorem reach_windowed {w : Nat} {ok : Resp → Bool} {pending order : List Req} {xs : List Resp}
    {answers : List Resp} {k : List Resp → Client Req Resp α} {q : S × Client Req Resp α}
    (hw : Windowed w pending order) (ht : V.Trace s order xs s') (hok : ∀ x ∈ xs, ok x = true)
    (h : V.Reach (s', k (answers ++ xs)) q) :
    V.Reach (s, .resume w ok true pending answers k) q := by
  induction hw generalizing s xs answers with
  | nil =>
      cases ht with
      | nil => simpa [Client.resume] using h
  | @pick pre post order r hlt hw ih =>
      cases ht with
      | @cons _ t _ _ x _ xs ha ht =>
          have hx : ok x = true := hok x List.mem_cons_self
          have hrest : V.Reach (t, .resume w ok true (pre ++ post) (answers ++ [x]) k) q :=
            ih ht (fun y hy => hok y (List.mem_cons_of_mem _ hy)) (by simpa using h)
          have hspill : V.Spill (if ok x then [] else (pre ++ post).take (w - 1)) t t := by
            rw [if_pos hx]
            exact .nil
          have hstep : V.Step s (.fan w ok (pre ++ r :: post) answers k) r x t
              (.resume w ok (ok x) (pre ++ post) (answers ++ [x]) k) := .fan hlt ha hspill
          rw [hx] at hstep
          have hne : (pre ++ r :: post).isEmpty = false := by simp
          simp only [Client.resume, hne, Bool.not_false, Bool.and_self, if_true]
          exact .head ⟨r, x, hstep⟩ hrest

end Service
