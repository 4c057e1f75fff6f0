import Mathlib.Data.Fintype.Card
import Mathlib.Data.Set.Finite.Basic
import Mathlib.Logic.Relation

namespace Ancestry

variable {α : Type} {parent : α → Option α}

inductive Chain (parent : α → Option α) : α → List α → Prop
  | root {a : α} (h : parent a = none) : Chain parent a []
  | step {a b : α} {bs : List α} (h : parent a = some b) (rest : Chain parent b bs) :
      Chain parent a (b :: bs)

def Above (parent : α → Option α) (b a : α) : Prop :=
  Relation.TransGen (fun a b => parent a = some b) a b

theorem Chain.unique {a : α} {bs cs : List α} (hb : Chain parent a bs) (hc : Chain parent a cs) :
    bs = cs := by
  induction hb generalizing cs with
  | root h =>
    cases hc with
    | root => rfl
    | step h' => rw [h] at h'; cases h'
  | step h _ ih =>
    cases hc with
    | root h' => rw [h] at h'; cases h'
    | step h' rest =>
      rw [h] at h'
      cases h'
      rw [ih rest]

theorem Chain.mem {a : α} {bs : List α} (h : Chain parent a bs) {b : α} (hb : b ∈ bs) :
    ∃ c, parent c = some b := by
  induction h with
  | root => cases hb
  | step h _ ih =>
    rcases List.mem_cons.mp hb with rfl | hb
    · exact ⟨_, h⟩
    · exact ih hb

theorem Chain.above_iff {a b : α} {bs : List α} (h : Chain parent a bs) :
    Above parent b a ↔ b ∈ bs := by
  induction h with
  | root h =>
    refine iff_of_false (fun hb => ?_) List.not_mem_nil
    obtain ⟨c, hc, _⟩ := Relation.TransGen.head'_iff.mp hb
    rw [h] at hc
    cases hc
  | @step a c cs h _ ih =>
    rw [List.mem_cons, ← ih]
    constructor
    · intro hb
      obtain ⟨d, hd, hrest⟩ := Relation.TransGen.head'_iff.mp hb
      rw [h] at hd
      cases hd
      exact (Relation.reflTransGen_iff_eq_or_transGen.mp hrest)
    · rintro (rfl | hb)
      · exact .single h
      · exact .head h hb

theorem Chain.of_above {a b : α} {bs : List α} (h : Chain parent a bs) (hb : Above parent b a) :
    ∃ cs, Chain parent b cs := by
  induction h with
  | root h => exact absurd ((Chain.root h).above_iff.mp hb) List.not_mem_nil
  | @step a c cs h rest ih =>
    rcases List.mem_cons.mp ((Chain.step h rest).above_iff.mp hb) with rfl | hb
    · exact ⟨cs, rest⟩
    · exact ih (rest.above_iff.mpr hb)

theorem exists_chain {nodes : List α} (acyclic : ∀ a ∈ nodes, ¬Above parent a a)
    (closed : ∀ a b, parent a = some b → b ∈ nodes) (a : α) : ∃ bs, Chain parent a bs := by
  let node := { n // n ∈ nodes }
  have : Finite node := nodes.finite_toSet.to_subtype
  let above (b a : node) : Prop := Above parent b.1 a.1
  have : IsTrans node above := ⟨fun _ _ _ hab hbc => Relation.TransGen.trans hbc hab⟩
  have : Std.Irrefl above := ⟨fun a => acyclic a.1 a.2⟩
  have climb (n : node) : ∃ bs, Chain parent n.1 bs := by
    induction n using (Finite.wellFounded_of_trans_of_irrefl above).induction with
    | _ n ih =>
      cases h : parent n.1 with
      | none => exact ⟨[], .root h⟩
      | some b =>
        obtain ⟨bs, hbs⟩ := ih ⟨b, closed n.1 b h⟩ (Relation.TransGen.single h)
        exact ⟨b :: bs, .step h hbs⟩
  cases h : parent a with
  | none => exact ⟨[], .root h⟩
  | some b =>
    obtain ⟨bs, hbs⟩ := climb ⟨b, closed a b h⟩
    exact ⟨b :: bs, .step h hbs⟩

theorem acyclic_of_rank {nodes : List α} (rank : α → Nat)
    (closed : ∀ a b, parent a = some b → b ∈ nodes)
    (h : ∀ a ∈ nodes, ∀ b, parent a = some b → rank b < rank a) :
    ∀ a ∈ nodes, ¬Above parent a a := by
  have lower {a b : α} (ha : a ∈ nodes) (hb : Above parent b a) : rank b < rank a := by
    induction hb using Relation.TransGen.head_induction_on with
    | single hab => exact h _ ha _ hab
    | head hab _ ih => exact (ih (closed _ _ hab)).trans (h _ ha _ hab)
  exact fun a ha habove => Nat.lt_irrefl _ (lower ha habove)

inductive Reached (parent : α → Option α) : Option α → α → Prop
  | here {a : α} : Reached parent (some a) a
  | up {a b : α} (h : Reached parent (parent a) b) : Reached parent (some a) b

@[simp] theorem not_reached_none {b : α} : ¬Reached parent none b := by
  intro h
  cases h

theorem reached_some {a b : α} :
    Reached parent (some a) b ↔ b = a ∨ Reached parent (parent a) b := by
  constructor
  · intro h
    cases h with
    | here => exact .inl rfl
    | up h => exact .inr h
  · rintro (rfl | h)
    · exact .here
    · exact .up h

theorem Reached.trans {start : Option α} {a b : α} (h : Reached parent start a)
    (hb : Reached parent (parent a) b) : Reached parent start b := by
  induction h with
  | here => exact .up hb
  | up _ ih => exact .up (ih hb)

theorem Reached.subset {start : Option α} {p : α → Prop} (hstart : ∀ a, start = some a → p a)
    (hstep : ∀ a b, p a → parent a = some b → p b) {a : α} (h : Reached parent start a) : p a := by
  induction h with
  | here => exact hstart _ rfl
  | up _ ih => exact ih fun b hb => hstep _ b (hstart _ rfl) hb

end Ancestry
