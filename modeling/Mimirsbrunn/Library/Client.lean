import Mathlib.Data.List.Forall2
import Mathlib.Logic.Relation
import Mathlib.Logic.Function.Basic

inductive Client (Req Resp α : Type) : Type where
  | done (a : α)
  | call (r : Req) (k : Resp → Client Req Resp α)
  | fan (window : Nat) (ok : Resp → Bool) (pending : List Req) (answers : List Resp)
      (k : List Resp → Client Req Resp α)

namespace Client

variable {Req Resp S α β : Type}

def bind : Client Req Resp α → (α → Client Req Resp β) → Client Req Resp β
  | .done a, f => f a
  | .call r k, f => .call r (fun x => (k x).bind f)
  | .fan w ok pending answers k, f => .fan w ok pending answers (fun xs => (k xs).bind f)

instance : Monad (Client Req Resp) where
  pure := .done
  bind := bind

def send (r : Req) : Client Req Resp Resp := .call r .done

def resume (w : Nat) (ok : Resp → Bool) (good : Bool) (pending : List Req) (answers : List Resp)
    (k : List Resp → Client Req Resp α) : Client Req Resp α :=
  if good && !pending.isEmpty then .fan w ok pending answers k else k answers

-- At most `w` requests are in flight, their answers come in any order and the first one that is
-- not `ok` stops the stream.
def bufferUnordered (w : Nat) (ok : Resp → Bool) (pending : List Req) :
    Client Req Resp (List Resp) :=
  resume w ok true pending [] .done

theorem resume_bind (w : Nat) (ok : Resp → Bool) (good : Bool) (pending : List Req)
    (answers : List Resp) (k : List Resp → Client Req Resp α) (f : α → Client Req Resp β) :
    (resume w ok good pending answers k).bind f =
      resume w ok good pending answers (fun xs => (k xs).bind f) := by
  unfold resume; split <;> rfl

theorem bind_assoc {γ : Type} (c : Client Req Resp α) (f : α → Client Req Resp β)
    (g : β → Client Req Resp γ) : (c.bind f).bind g = c.bind (fun a => (f a).bind g) := by
  induction c with
  | done a => rfl
  | call r k ih => exact congrArg (Client.call r) (funext ih)
  | fan w ok pending answers k ih =>
      exact congrArg (Client.fan w ok pending answers) (funext ih)

def Sends (own : Req → Prop) : Client Req Resp α → Prop
  | .done _ => True
  | .call r _ => own r
  | .fan _ _ pending _ _ => ∀ r ∈ pending, own r

inductive Answered (good : Req → Resp → Prop) : Client Req Resp α → α → Prop
  | done {a : α} : Answered good (.done a) a
  | call {r : Req} {x : Resp} {k : Resp → Client Req Resp α} {a : α} :
      good r x → Answered good (k x) a → Answered good (.call r k) a
  | fan {w : Nat} {ok : Resp → Bool} {pre post : List Req} {r : Req} {x : Resp}
      {answers : List Resp} {k : List Resp → Client Req Resp α} {a : α} :
      pre.length < w → good r x →
      Answered good (.resume w ok (ok x) (pre ++ post) (answers ++ [x]) k) a →
      Answered good (.fan w ok (pre ++ r :: post) answers k) a

theorem answered_done {good : Req → Resp → Prop} {a b : α} :
    Answered good (.done a : Client Req Resp α) b ↔ b = a := by
  constructor
  · intro h
    cases h with
    | done => rfl
  · rintro rfl
    exact .done

theorem answered_call {good : Req → Resp → Prop} {r : Req} {k : Resp → Client Req Resp α} {a : α} :
    Answered good (.call r k) a ↔ ∃ x, good r x ∧ Answered good (k x) a := by
  constructor
  · intro h
    cases h with
    | call hx ha => exact ⟨_, hx, ha⟩
  · rintro ⟨x, hx, ha⟩
    exact .call hx ha

theorem answered_bind {good : Req → Resp → Prop} {c : Client Req Resp α}
    {f : α → Client Req Resp β} {b : β} (h : Answered good (c.bind f) b) :
    ∃ a, Answered good c a ∧ Answered good (f a) b := by
  generalize hq : c.bind f = q at h
  induction h generalizing c with
  | done =>
      cases c with
      | done a =>
          have hf : f a = .done _ := hq
          exact ⟨a, .done, hf ▸ .done⟩
      | call r k => cases hq
      | fan w ok pending answers k => cases hq
  | call hx hrest ih =>
      cases c with
      | done a =>
          have hf : f a = .call _ _ := hq
          exact ⟨a, .done, hf ▸ .call hx hrest⟩
      | call r k =>
          cases hq
          obtain ⟨a, hfirst, hthen⟩ := ih rfl
          exact ⟨a, .call hx hfirst, hthen⟩
      | fan w ok pending answers k => cases hq
  | fan hw hx hrest ih =>
      cases c with
      | done a =>
          have hf : f a = .fan _ _ _ _ _ := hq
          exact ⟨a, .done, hf ▸ .fan hw hx hrest⟩
      | call r k => cases hq
      | fan w ok pending answers k =>
          cases hq
          obtain ⟨a, hfirst, hthen⟩ := ih (resume_bind ..)
          exact ⟨a, .fan hw hx hfirst, hthen⟩

def each {ε : Type} (f : α → Client Req Resp (Except ε β)) :
    List α → Client Req Resp (Except ε (List β))
  | [] => .done (.ok [])
  | x :: xs => (f x).bind fun
      | .ok y => (each f xs).bind fun
          | .ok ys => .done (.ok (y :: ys))
          | .error e => .done (.error e)
      | .error e => .done (.error e)

theorem answered_each {ε : Type} {good : Req → Resp → Prop}
    {f : α → Client Req Resp (Except ε β)} {xs : List α} {result : Except ε (List β)}
    (h : Answered good (each f xs) result) :
    (∃ ys, result = .ok ys ∧ List.Forall₂ (fun x y => Answered good (f x) (.ok y)) xs ys) ∨
      ∃ x ∈ xs, ∃ e, result = .error e ∧ Answered good (f x) (.error e) := by
  induction xs generalizing result with
  | nil =>
      obtain rfl := answered_done.mp h
      exact .inl ⟨[], rfl, .nil⟩
  | cons x xs ih =>
      obtain ⟨y, hy, hthen⟩ := answered_bind h
      cases y with
      | error e =>
          obtain rfl := answered_done.mp hthen
          exact .inr ⟨x, List.mem_cons_self, e, rfl, hy⟩
      | ok y =>
          obtain ⟨ys, hys, hlast⟩ := answered_bind hthen
          rcases ih hys with ⟨ys, rfl, hall⟩ | ⟨x', hx', e, rfl, he⟩
          · obtain rfl := answered_done.mp hlast
            exact .inl ⟨y :: ys, rfl, .cons hy hall⟩
          · obtain rfl := answered_done.mp hlast
            exact .inr ⟨x', List.mem_cons_of_mem _ hx', e, rfl, he⟩

theorem Answered.mono {good good' : Req → Resp → Prop} {c : Client Req Resp α} {a : α}
    (h : Answered good c a) (himp : ∀ r x, good r x → good' r x) : Answered good' c a := by
  induction h with
  | done => exact .done
  | call hx _ ih => exact .call (himp _ _ hx) ih
  | fan hw hx _ ih => exact .fan hw (himp _ _ hx) ih

end Client

structure Service (Req Resp S : Type) where
  serve : Req → S → S × Resp
  cut : Req → S → S → Prop
  fault : Req → Resp → Prop

namespace Service

variable {Req Resp S α β : Type}

-- A request is served, or its sender sees a fault while the store keeps some part of its effect.
inductive Answer (V : Service Req Resp S) (r : Req) (s : S) : S → Resp → Prop
  | served : Answer V r s (V.serve r s).1 (V.serve r s).2
  | broken {s' : S} {x : Resp} : V.cut r s s' → V.fault r x → Answer V r s s' x

-- What the requests still in flight leave behind once nobody waits for their answers.
inductive Spill (V : Service Req Resp S) : List Req → S → S → Prop
  | nil {s : S} : Spill V [] s s
  | cut {s s' s'' : S} {r : Req} {pre post : List Req} :
      V.cut r s s' → Spill V (pre ++ post) s' s'' → Spill V (pre ++ r :: post) s s''

inductive Step (V : Service Req Resp S) : S → Client Req Resp α → Req → Resp → S →
    Client Req Resp α → Prop
  | call {s s' : S} {r : Req} {x : Resp} {k : Resp → Client Req Resp α} :
      V.Answer r s s' x → Step V s (.call r k) r x s' (k x)
  | fan {s s' s'' : S} {w : Nat} {ok : Resp → Bool} {pre post : List Req} {r : Req} {x : Resp}
      {answers : List Resp} {k : List Resp → Client Req Resp α} :
      pre.length < w → V.Answer r s s' x →
      V.Spill (if ok x then [] else (pre ++ post).take (w - 1)) s' s'' →
      Step V s (.fan w ok (pre ++ r :: post) answers k) r x s''
        (.resume w ok (ok x) (pre ++ post) (answers ++ [x]) k)

def Next (V : Service Req Resp S) (p q : S × Client Req Resp α) : Prop :=
  ∃ r x, V.Step p.1 p.2 r x q.1 q.2

def Reach (V : Service Req Resp S) : S × Client Req Resp α → S × Client Req Resp α → Prop :=
  Relation.ReflTransGen V.Next

theorem step_call {V : Service Req Resp S} {s s' : S} {r q : Req} {x : Resp}
    {k : Resp → Client Req Resp α} {c : Client Req Resp α} (h : V.Step s (.call r k) q x s' c) :
    q = r ∧ c = k x ∧ V.Answer r s s' x := by
  cases h with
  | call ha => exact ⟨rfl, rfl, ha⟩

theorem step_fan {V : Service Req Resp S} {s s' : S} {w : Nat} {ok : Resp → Bool}
    {pending : List Req} {answers : List Resp} {k : List Resp → Client Req Resp α} {q : Req}
    {x : Resp} {c : Client Req Resp α} (h : V.Step s (.fan w ok pending answers k) q x s' c) :
    ∃ pre post t, pending = pre ++ q :: post ∧ pre.length < w ∧ V.Answer q s t x ∧
      V.Spill (if ok x then [] else (pre ++ post).take (w - 1)) t s' ∧
      c = .resume w ok (ok x) (pre ++ post) (answers ++ [x]) k := by
  cases h with
  | fan hw ha hs => exact ⟨_, _, _, rfl, hw, ha, hs, rfl⟩

theorem spill_nil {V : Service Req Resp S} {s s' : S} (h : V.Spill [] s s') : s' = s := by
  generalize hl : ([] : List Req) = l at h
  cases h with
  | nil => rfl
  | cut => simp at hl

theorem Spill.invariant {V : Service Req Resp S} {rs : List Req} {s s' : S} (I : S → Prop)
    (hcut : ∀ r ∈ rs, ∀ s s', V.cut r s s' → I s → I s') (h : V.Spill rs s s') (hs : I s) :
    I s' := by
  induction h with
  | nil => exact hs
  | cut hc _ ih =>
      refine ih (fun r hr => hcut r ?_) (hcut _ (by simp) _ _ hc hs)
      simp only [List.mem_append, List.mem_cons] at hr ⊢
      exact hr.imp_right Or.inr

theorem mem_window {good : Bool} {w : Nat} {pre post : List Req} {r q : Req}
    (h : q ∈ (if good then [] else (pre ++ post).take w)) : q ∈ pre ++ r :: post := by
  split at h
  · cases h
  · have hm := List.mem_of_mem_take h
    simp only [List.mem_append, List.mem_cons] at hm ⊢
    exact hm.imp_right Or.inr

theorem window_invariant {V : Service Req Resp S} {w : Nat} {good : Bool} {pre post : List Req}
    {r : Req} {x : Resp} {s s' s'' : S} (I : S → Prop)
    (hanswer : ∀ q ∈ pre ++ r :: post, ∀ t t' y, V.Answer q t t' y → I t → I t')
    (hcut : ∀ q t t', V.cut q t t' → ∃ y, V.Answer q t t' y) (ha : V.Answer r s s' x)
    (hs : V.Spill (if good then [] else (pre ++ post).take w) s' s'') (h : I s) : I s'' := by
  refine hs.invariant I (fun q hq t t' hc => ?_) (hanswer r (by simp) s s' x ha h)
  obtain ⟨y, hy⟩ := hcut q t t' hc
  refine hanswer q ?_ t t' y hy
  split at hq
  · cases hq
  · have hm := List.mem_of_mem_take hq
    simp only [List.mem_append, List.mem_cons] at hm ⊢
    exact hm.imp_right Or.inr

theorem not_step_done {V : Service Req Resp S} {s s' : S} {a : α} {q : Req} {x : Resp}
    {c : Client Req Resp α} : ¬ V.Step s (.done a) q x s' c := nofun

theorem reach_invariant {V : Service Req Resp S} {p q : S × Client Req Resp α}
    (I : S → Client Req Resp α → Prop) (hp : I p.1 p.2)
    (hstep : ∀ s c r x s' c', I s c → V.Step s c r x s' c' → I s' c') (h : V.Reach p q) :
    I q.1 q.2 := by
  induction h with
  | refl => exact hp
  | tail _ hn ih =>
      obtain ⟨r, x, hs⟩ := hn
      exact hstep _ _ _ _ _ _ ih hs

theorem reach_done {V : Service Req Resp S} {s : S} {a : α} {q : S × Client Req Resp α}
    (h : V.Reach (s, .done a) q) : q = (s, .done a) := by
  rcases Relation.ReflTransGen.cases_head h with rfl | ⟨p, ⟨r, x, hs⟩, _⟩
  · rfl
  · exact absurd hs not_step_done

theorem reach_call {V : Service Req Resp S} {s s' : S} {r : Req} {k : Resp → Client Req Resp α}
    {a : α} (h : V.Reach (s, .call r k) (s', .done a)) :
    ∃ x t, V.Answer r s t x ∧ V.Reach (t, k x) (s', .done a) := by
  rcases Relation.ReflTransGen.cases_head h with he | ⟨⟨t, c⟩, ⟨q, x, hs⟩, hrest⟩
  · cases he
  · obtain ⟨rfl, hc, ha⟩ := step_call hs
    simp only at hc
    subst hc
    exact ⟨x, t, ha, hrest⟩

theorem reach_served {V : Service Req Resp S} {s : S} {r : Req} {k : Resp → Client Req Resp α}
    {q : S × Client Req Resp α} (h : V.Reach ((V.serve r s).1, k (V.serve r s).2) q) :
    V.Reach (s, .call r k) q :=
  .head ⟨r, _, .call .served⟩ h

inductive Fate (Resp : Type) where
  | served
  | dropped (x : Resp)
  | applied (x : Resp)

def answer (V : Service Req Resp S) (r : Req) (s : S) : Fate Resp → S × Resp
  | .served => V.serve r s
  | .dropped x => (s, x)
  | .applied x => ((V.serve r s).1, x)

def execAll (V : Service Req Resp S) (ok : Resp → Bool) (fate : Nat → Fate Resp) :
    Nat → S → List Resp → List Req → Nat × S × List Resp
  | n, s, answers, [] => (n, s, answers)
  | n, s, answers, r :: rs =>
      let a := V.answer r s (fate n)
      if ok a.2 then execAll V ok fate (n + 1) a.1 (answers ++ [a.2]) rs
      else (n + 1, a.1, answers ++ [a.2])

def exec (V : Service Req Resp S) (fate : Nat → Fate Resp) :
    Nat → S → Client Req Resp α → Nat × S × α
  | n, s, .done a => (n, s, a)
  | n, s, .call r k =>
      exec V fate (n + 1) (V.answer r s (fate n)).1 (k (V.answer r s (fate n)).2)
  | n, s, .fan _ ok pending answers k =>
      let a := V.execAll ok fate n s answers pending
      exec V fate a.1 a.2.1 (k a.2.2)

def Fate.applies : Fate Resp → Bool
  | .served => true
  | .dropped _ => false
  | .applied _ => true

theorem answer_fst (V : Service Req Resp S) (r : Req) (s : S) (f : Fate Resp) :
    (V.answer r s f).1 = if f.applies then (V.serve r s).1 else s := by
  cases f <;> rfl

theorem execAll_count (V : Service Req Resp S) (ok : Resp → Bool) (fate : Nat → Fate Resp)
    (n : Nat) (s : S) (answers : List Resp) (rs : List Req) :
    n ≤ (V.execAll ok fate n s answers rs).1 ∧
      ((V.execAll ok fate n s answers rs).1 = n → (V.execAll ok fate n s answers rs).2.1 = s) := by
  induction rs generalizing n s answers with
  | nil => exact ⟨Nat.le_refl n, fun _ => rfl⟩
  | cons r rs ih =>
      simp only [execAll]
      split
      · obtain ⟨hle, _⟩ := ih (n + 1) (V.answer r s (fate n)).1
          (answers ++ [(V.answer r s (fate n)).2])
        exact ⟨by omega, fun h => by omega⟩
      · exact ⟨by simp, fun h => by simp at h⟩

theorem exec_count (V : Service Req Resp S) (fate : Nat → Fate Resp) (n : Nat) (s : S)
    (c : Client Req Resp α) :
    n ≤ (V.exec fate n s c).1 ∧ ((V.exec fate n s c).1 = n → (V.exec fate n s c).2.1 = s) := by
  induction c generalizing n s with
  | done a => exact ⟨Nat.le_refl n, fun _ => rfl⟩
  | call r k ih =>
      obtain ⟨hle, _⟩ := ih (V.answer r s (fate n)).2 (n + 1) (V.answer r s (fate n)).1
      simp only [exec]
      exact ⟨by omega, fun h => by omega⟩
  | fan w ok pending answers k ih =>
      obtain ⟨hall, hsame⟩ := V.execAll_count ok fate n s answers pending
      simp only [exec]
      obtain ⟨hle, hk⟩ := ih (V.execAll ok fate n s answers pending).2.2
        (V.execAll ok fate n s answers pending).1 (V.execAll ok fate n s answers pending).2.1
      refine ⟨by omega, fun h => ?_⟩
      have heq : (V.execAll ok fate n s answers pending).1 = n := by omega
      rw [hk (by omega), hsame heq]

theorem exec_served {V : Service Req Resp S} {n : Nat} {s : S} {r : Req}
    {k : Resp → Client Req Resp α} :
    V.exec (fun _ => .served) n s (.call r k) =
      V.exec (fun _ => .served) (n + 1) (V.serve r s).1 (k (V.serve r s).2) :=
  rfl

theorem exec_stop {V : Service Req Resp S} {fate : Nat → Fate Resp} {n p : Nat} {s s' : S}
    {r : Req} {k : Resp → Client Req Resp α} {a : α}
    (h : V.exec fate n s (.call r k) = (p + 1, s', a)) (hp : ∀ j < p, fate j = .served) :
    (n < p ∧ V.exec fate (n + 1) (V.serve r s).1 (k (V.serve r s).2) = (p + 1, s', a)) ∨
      (n = p ∧ s' = if (fate p).applies then (V.serve r s).1 else s) := by
  have hle := V.exec_count fate (n + 1) (V.answer r s (fate n)).1 (k (V.answer r s (fate n)).2)
  simp only [exec] at h
  rw [h] at hle
  simp only at hle
  rcases Nat.lt_or_eq_of_le (Nat.le_of_succ_le_succ hle.1) with hlt | rfl
  · rw [hp n hlt] at h
    exact .inl ⟨hlt, h⟩
  · exact .inr ⟨rfl, by rw [hle.2 rfl, answer_fst]⟩

end Service
