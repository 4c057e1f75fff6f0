import Mimirsbrunn.Library.Client

-- A client that reads a store which others change meanwhile; `T` is what the server keeps for this
-- client alone.
structure Watching (Req Resp S T : Type) where
  moves : S → S → Prop
  reads : S → T → Req → Resp → T → Prop

namespace Watching

variable {Req Resp S T α β : Type} {W : Watching Req Resp S T} {P : S → Prop}

inductive Next (W : Watching Req Resp S T) :
    S × T × Client Req Resp α → S × T × Client Req Resp α → Prop
  | move {s s' : S} {t : T} {c : Client Req Resp α} : W.moves s s' → Next W (s, t, c) (s', t, c)
  | call {s : S} {t t' : T} {r : Req} {x : Resp} {k : Resp → Client Req Resp α} :
      W.reads s t r x t' → Next W (s, t, .call r k) (s, t', k x)
  | fan {s : S} {t t' : T} {w : Nat} {ok : Resp → Bool} {pre post : List Req} {r : Req} {x : Resp}
      {answers : List Resp} {k : List Resp → Client Req Resp α} :
      pre.length < w → W.reads s t r x t' →
      Next W (s, t, .fan w ok (pre ++ r :: post) answers k)
        (s, t', .resume w ok (ok x) (pre ++ post) (answers ++ [x]) k)

def Run (W : Watching Req Resp S T) :
    S × T × Client Req Resp α → S × T × Client Req Resp α → Prop :=
  Relation.ReflTransGen W.Next

theorem run_moves {s s' : S} {t : T} {c : Client Req Resp α}
    (h : Relation.ReflTransGen W.moves s s') : W.Run (s, t, c) (s', t, c) :=
  h.lift (fun s => (s, t, c)) fun _ _ hm => .move hm

inductive Session (W : Watching Req Resp S T) (P : S → Prop) :
    T × Client Req Resp α → T × Client Req Resp α → Prop
  | refl {p : T × Client Req Resp α} : Session W P p p
  | call {s : S} {t t' : T} {r : Req} {x : Resp} {k : Resp → Client Req Resp α}
      {q : T × Client Req Resp α} :
      P s → W.reads s t r x t' → Session W P (t', k x) q → Session W P (t, .call r k) q
  | fan {s : S} {t t' : T} {w : Nat} {ok : Resp → Bool} {pre post : List Req} {r : Req} {x : Resp}
      {answers : List Resp} {k : List Resp → Client Req Resp α} {q : T × Client Req Resp α} :
      pre.length < w → P s → W.reads s t r x t' →
      Session W P (t', .resume w ok (ok x) (pre ++ post) (answers ++ [x]) k) q →
      Session W P (t, .fan w ok (pre ++ r :: post) answers k) q

theorem run_session (hmove : ∀ s s', P s → W.moves s s' → P s')
    {p q : S × T × Client Req Resp α} (h : W.Run p q) (hp : P p.1) :
    P q.1 ∧ W.Session P p.2 q.2 := by
  induction h using Relation.ReflTransGen.head_induction_on with
  | refl => exact ⟨hp, .refl⟩
  | head hn _ ih =>
      cases hn with
      | move hm => exact ih (hmove _ _ hp hm)
      | call hr =>
          obtain ⟨hq, hs⟩ := ih hp
          exact ⟨hq, .call hp hr hs⟩
      | fan hw hr =>
          obtain ⟨hq, hs⟩ := ih hp
          exact ⟨hq, .fan hw hp hr hs⟩

theorem session_call {t : T} {r : Req} {k : Resp → Client Req Resp α} {t' : T} {a : α}
    (h : W.Session P (t, .call r k) (t', .done a)) :
    ∃ s x u, P s ∧ W.reads s t r x u ∧ W.Session P (u, k x) (t', .done a) := by
  generalize hp : (t, Client.call r k) = p at h
  generalize hq : (t', Client.done a) = q at h
  cases h with
  | refl => cases hp.trans hq.symm
  | call hs hr hrest =>
      cases hp
      exact ⟨_, _, _, hs, hr, hq ▸ hrest⟩
  | fan => cases hp

theorem session_done {t t' : T} {a b : α}
    (h : W.Session P (t, .done a) (t', (.done b : Client Req Resp α))) : t' = t ∧ b = a := by
  cases h with
  | refl => exact ⟨rfl, rfl⟩

theorem session_bind {t t' : T} {c : Client Req Resp α} {f : α → Client Req Resp β} {b : β}
    (h : W.Session P (t, c.bind f) (t', .done b)) :
    ∃ u a, W.Session P (t, c) (u, .done a) ∧ W.Session P (u, f a) (t', .done b) := by
  generalize hp : (t, c.bind f) = p at h
  generalize hq : (t', (Client.done b : Client Req Resp β)) = q at h
  induction h generalizing t c with
  | refl =>
      subst hp
      obtain ⟨rfl, hdone⟩ := Prod.mk.inj hq
      cases c with
      | done a => exact ⟨_, a, .refl, .refl⟩
      | call r k => cases hdone
      | fan w ok pending answers k => cases hdone
  | call hs hr hrest ih =>
      obtain ⟨rfl, hcall⟩ := Prod.mk.inj hp
      cases c with
      | done a =>
          subst hq
          have hcall : f a = .call _ _ := hcall
          exact ⟨_, a, .refl, hcall ▸ .call hs hr hrest⟩
      | call r k =>
          cases hcall
          obtain ⟨u, a, hfirst, hthen⟩ := ih rfl hq
          exact ⟨u, a, .call hs hr hfirst, hthen⟩
      | fan w ok pending answers k => cases hcall
  | fan hw hs hr hrest ih =>
      obtain ⟨rfl, hfan⟩ := Prod.mk.inj hp
      cases c with
      | done a =>
          subst hq
          have hfan : f a = .fan _ _ _ _ _ := hfan
          exact ⟨_, a, .refl, hfan ▸ .fan hw hs hr hrest⟩
      | call r k => cases hfan
      | fan w ok pending answers k =>
          cases hfan
          obtain ⟨u, a, hfirst, hthen⟩ := ih (congrArg _ (Client.resume_bind ..)) hq
          exact ⟨u, a, .fan hw hs hr hfirst, hthen⟩

theorem session_answered {P : S → Prop} {W : Watching Req Resp S Unit}
    {p : Unit × Client Req Resp α} {t : Unit} {a : α} (h : W.Session P p (t, .done a)) :
    Client.Answered (fun r x => ∃ s, P s ∧ W.reads s () r x ()) p.2 a := by
  generalize hq : (t, (Client.done a : Client Req Resp α)) = q at h
  induction h with
  | refl =>
      subst hq
      exact .done
  | call hs hr _ ih => exact .call ⟨_, hs, hr⟩ (ih hq)
  | fan hw hs hr _ ih => exact .fan hw ⟨_, hs, hr⟩ (ih hq)

theorem run_answered {P : S → Prop} {W : Watching Req Resp S Unit}
    (hmove : ∀ s s', P s → W.moves s s' → P s') {s s' : S} {c : Client Req Resp α} {a : α}
    (h : W.Run (s, (), c) (s', (), .done a)) (hs : P s) :
    Client.Answered (fun r x => ∃ s, P s ∧ W.reads s () r x ()) c a :=
  session_answered (run_session hmove h hs).2

end Watching
