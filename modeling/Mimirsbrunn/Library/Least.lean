import Mathlib.Order.Lattice

-- A running minimum by key that keeps what it has when a key comes again.
namespace Least

variable {κ β : Type} [LinearOrder κ]

def keep : Option (κ × β) → Option (κ × β) → Option (κ × β)
  | none, offer => offer
  | some held, none => some held
  | some held, some offer => if offer.1 < held.1 then some offer else some held

theorem keep_none (held : Option (κ × β)) : keep held none = held := by
  cases held <;> rfl

theorem keep_again (held : Option (κ × β)) (k : κ) (b c : β) :
    keep (keep held (some (k, b))) (some (k, c)) = keep held (some (k, b)) := by
  cases held with
  | none => exact if_neg (lt_irrefl k)
  | some held =>
      simp only [keep]
      by_cases h : k < held.1
      · rw [if_pos h]
        exact if_neg (lt_irrefl k)
      · rw [if_neg h]
        exact if_neg h

theorem foldl_keep_mem {held : Option (κ × β)} {offers : List (Option (κ × β))} {x : κ × β}
    (h : offers.foldl keep held = some x) : held = some x ∨ some x ∈ offers := by
  induction offers generalizing held with
  | nil => exact .inl h
  | cons offer offers ih =>
      rcases ih h with hx | hx
      · cases held with
        | none => exact .inr (List.mem_cons.mpr (.inl hx.symm))
        | some y =>
            cases offer with
            | none => exact .inl hx
            | some z =>
                simp only [keep] at hx
                split at hx
                · exact .inr (List.mem_cons.mpr (.inl hx.symm))
                · exact .inl hx
      · exact .inr (List.mem_cons_of_mem _ hx)

theorem mem_of_foldl_keep {offers : List (Option (κ × β))} {x : κ × β}
    (h : offers.foldl keep none = some x) : some x ∈ offers := by
  rcases foldl_keep_mem h with hn | hx
  · cases hn
  · exact hx

theorem keep_le {held offer : Option (κ × β)} {y : κ × β} (h : held = some y ∨ offer = some y) :
    ∃ x, keep held offer = some x ∧ x.1 ≤ y.1 := by
  cases held with
  | none =>
      rcases h with h | h
      · cases h
      · exact ⟨y, h, le_refl _⟩
  | some w =>
      cases offer with
      | none =>
          rcases h with h | h
          · exact ⟨w, rfl, by rw [Option.some.inj h]⟩
          · cases h
      | some z =>
          simp only [keep]
          split
          · next hlt =>
            rcases h with h | h
            · exact ⟨z, rfl, Option.some.inj h ▸ le_of_lt hlt⟩
            · exact ⟨z, rfl, by rw [Option.some.inj h]⟩
          · next hle =>
            rcases h with h | h
            · exact ⟨w, rfl, by rw [Option.some.inj h]⟩
            · exact ⟨w, rfl, Option.some.inj h ▸ not_lt.mp hle⟩

theorem foldl_keep_le {held : Option (κ × β)} {offers : List (Option (κ × β))} {y : κ × β}
    (h : held = some y ∨ some y ∈ offers) :
    ∃ x, offers.foldl keep held = some x ∧ x.1 ≤ y.1 := by
  induction offers generalizing held y with
  | nil => exact ⟨y, h.resolve_right List.not_mem_nil, le_refl _⟩
  | cons offer offers ih =>
      rw [List.mem_cons, ← or_assoc] at h
      rcases h with h | h
      · obtain ⟨x, hx, hle⟩ := keep_le (h.imp_right Eq.symm)
        obtain ⟨z, hz, hle'⟩ := ih (.inl hx)
        exact ⟨z, hz, le_trans hle' hle⟩
      · exact ih (.inr h)

theorem foldl_keep_iff {offers : List (Option (κ × β))} {x : κ × β}
    (hkeys : ∀ y z, some y ∈ offers → some z ∈ offers → y.1 = z.1 → y = z) :
    offers.foldl keep none = some x ↔
      some x ∈ offers ∧ ∀ y, some y ∈ offers → x.1 ≤ y.1 := by
  constructor
  · intro h
    refine ⟨mem_of_foldl_keep h, fun y hy => ?_⟩
    obtain ⟨z, hz, hle⟩ := foldl_keep_le (.inr hy)
    rwa [Option.some.inj (h.symm.trans hz)]
  · rintro ⟨hx, hmin⟩
    obtain ⟨z, hz, hle⟩ := foldl_keep_le (.inr hx)
    have hz' := mem_of_foldl_keep hz
    rw [hz, hkeys z x hz' hx (le_antisymm hle (hmin z hz'))]

end Least
