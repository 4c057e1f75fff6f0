import Mathlib.Data.List.Basic

namespace Outcome

variable {ε ε' α β : Type}

theorem bind_ok {x : Except ε α} {f : α → Except ε β} {b : β} :
    x >>= f = .ok b ↔ ∃ a, x = .ok a ∧ f a = .ok b := by
  cases x with
  | error e =>
      constructor
      · intro h
        cases h
      · rintro ⟨a, h, _⟩
        cases h
  | ok a =>
      constructor
      · exact fun h => ⟨a, rfl, h⟩
      · rintro ⟨a', ha, h⟩
        obtain rfl := Except.ok.inj ha
        exact h

theorem guard_ok {c : Prop} [Decidable c] {e : ε} {a b : α} :
    (if c then Except.error e else .ok a) = .ok b ↔ b = a ∧ ¬ c := by
  by_cases hc : c
  · simp [hc]
  · rw [if_neg hc]
    exact ⟨fun h => ⟨(Except.ok.inj h).symm, hc⟩, fun h => congrArg _ h.1.symm⟩

theorem mapError_ok {x : Except ε α} {f : ε → ε'} {a : α} : x.mapError f = .ok a ↔ x = .ok a := by
  cases x <;> simp [Except.mapError]

theorem map_ok {x : Except ε α} {f : α → β} {b : β} :
    x.map f = .ok b ↔ ∃ a, x = .ok a ∧ f a = b := by
  cases x <;> simp [Except.map]

theorem foldlM_view {σ τ ω : Type} {step : σ → α → Except ε σ} (view : σ → τ) (offer : α → ω)
    (combine : τ → ω → τ)
    (hstep : ∀ s a s', step s a = .ok s' → view s' = combine (view s) (offer a))
    {as : List α} {s s' : σ} (h : as.foldlM step s = .ok s') :
    view s' = (as.map offer).foldl combine (view s) := by
  induction as generalizing s with
  | nil =>
      obtain rfl := Except.ok.inj h
      rfl
  | cons a as ih =>
      rw [List.foldlM_cons] at h
      obtain ⟨t, ht, hrest⟩ := bind_ok.mp h
      rw [ih hrest, hstep s a t ht, List.map_cons, List.foldl_cons]

theorem forM_ok {f : α → Except ε Unit} {as : List α} :
    as.forM f = .ok () ↔ ∀ a ∈ as, f a = .ok () := by
  induction as with
  | nil => exact ⟨fun _ _ h => (List.not_mem_nil h).elim, fun _ => rfl⟩
  | cons a as ih =>
      have hcons : (a :: as).forM f = f a >>= fun _ => as.forM f := rfl
      rw [hcons, bind_ok, List.forall_mem_cons, ← ih]
      exact ⟨fun ⟨(), ha, hrest⟩ => ⟨ha, hrest⟩, fun ⟨ha, hrest⟩ => ⟨(), ha, hrest⟩⟩

end Outcome
