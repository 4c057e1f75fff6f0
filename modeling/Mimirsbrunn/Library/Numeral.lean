import Mathlib.Data.List.Basic

-- Texts cut at a separator, and decimal numerals, which hold no separator.
namespace Numeral

theorem split_at {α : Type} {c : α} {xs ys xs' ys' : List α} (hx : c ∉ xs) (hx' : c ∉ xs')
    (h : xs ++ c :: ys = xs' ++ c :: ys') : xs = xs' ∧ ys = ys' := by
  induction xs generalizing xs' with
  | nil =>
      cases xs' with
      | nil => exact ⟨rfl, (List.cons.inj h).2⟩
      | cons x' xs' => exact absurd ((List.cons.inj h).1 ▸ List.mem_cons_self) hx'
  | cons x xs ih =>
      cases xs' with
      | nil => exact absurd ((List.cons.inj h).1 ▸ List.mem_cons_self) hx
      | cons x' xs' =>
          obtain ⟨rfl, hrest⟩ := List.cons.inj h
          obtain ⟨rfl, rfl⟩ := ih (fun hm => hx (List.mem_cons_of_mem _ hm))
            (fun hm => hx' (List.mem_cons_of_mem _ hm)) hrest
          exact ⟨rfl, rfl⟩

theorem split_absent {α : Type} {c : α} {xs ys zs : List α} (h : c ∉ zs) : xs ++ c :: ys ≠ zs := by
  rintro rfl
  exact h (List.mem_append_right _ List.mem_cons_self)

theorem toDigits_injective {n m : Nat} (h : Nat.toDigits 10 n = Nat.toDigits 10 m) : n = m := by
  have hread := congrArg (fun ds => Nat.ofDigitChars 10 ds 0) h
  simpa only [Nat.ofDigitChars_ten_toDigits] using hread

theorem separator_notMem_toDigits {c : Char} (hc : c.isDigit = false) (n : Nat) :
    c ∉ Nat.toDigits 10 n := by
  intro h
  have hdigit := Nat.isDigit_of_mem_toDigits (by decide) (by decide) h
  rw [hc] at hdigit
  cases hdigit

theorem cons_ne_toDigits {c : Char} (hc : c.isDigit = false) (n : Nat) (xs ys : List Char) :
    c :: xs ≠ Nat.toDigits 10 n ++ ys := by
  intro h
  cases hd : Nat.toDigits 10 n with
  | nil => exact Nat.toDigits_ne_nil hd
  | cons d ds =>
      have hfree := separator_notMem_toDigits hc n
      rw [hd, List.cons_append] at h
      rw [hd, ← (List.cons.inj h).1] at hfree
      exact hfree List.mem_cons_self

end Numeral
