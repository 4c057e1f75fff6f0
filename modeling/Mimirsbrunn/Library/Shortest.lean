import Mathlib.Order.Monotone.Basic
import Mathlib.Order.Basic
import Mathlib.Algebra.Group.Nat.Defs

-- A grid of values that grows, and the integers that round to one of them.
namespace Shortest

variable {v : Nat → Nat} {m n c : Nat}

def Rounds (v : Nat → Nat) (n c : Nat) : Prop :=
  if n % 2 = 0 then v (n - 1) + v n ≤ 2 * c ∧ 2 * c ≤ v n + v (n + 1)
  else v (n - 1) + v n < 2 * c ∧ 2 * c < v n + v (n + 1)

instance : Decidable (Rounds v n c) :=
  inferInstanceAs (Decidable (if n % 2 = 0 then v (n - 1) + v n ≤ 2 * c ∧ 2 * c ≤ v n + v (n + 1)
    else v (n - 1) + v n < 2 * c ∧ 2 * c < v n + v (n + 1)))

theorem Rounds.le (h : Rounds v n c) : v (n - 1) + v n ≤ 2 * c ∧ 2 * c ≤ v n + v (n + 1) := by
  rw [Rounds] at h
  split at h
  · exact h
  · exact ⟨h.1.le, h.2.le⟩

theorem Rounds.lt (h : Rounds v n c) (hn : n % 2 = 1) :
    v (n - 1) + v n < 2 * c ∧ 2 * c < v n + v (n + 1) := by
  rw [Rounds, if_neg (by omega)] at h
  exact h

theorem rounds_self (hv : StrictMono v) (hn : 0 < n) : Rounds v n (v n) := by
  have hbelow := hv (Nat.sub_lt hn Nat.one_pos)
  have habove : v n < v (n + 1) := hv (Nat.lt_add_one n)
  rw [Rounds]
  split <;> omega

theorem Rounds.not_lt (hv : StrictMono v) (hm : Rounds v m c) (hn : Rounds v n c) : ¬m < n := by
  intro hlt
  have hlow : v m ≤ v (n - 1) := hv.monotone (Nat.le_sub_one_of_lt hlt)
  have hhigh : v (m + 1) ≤ v n := hv.monotone (Nat.succ_le_of_lt hlt)
  obtain ⟨_, hup⟩ := hm.le
  obtain ⟨hdown, _⟩ := hn.le
  have hsame : v m = v (n - 1) := by omega
  have hnext : n = m + 1 := by
    have := hv.injective hsame
    omega
  subst hnext
  rcases Nat.mod_two_eq_zero_or_one m with heven | hodd
  · have := (hn.lt (by omega)).1
    omega
  · have := (hm.lt hodd).2
    omega

theorem Rounds.unique (hv : StrictMono v) (hm : Rounds v m c) (hn : Rounds v n c) : m = n := by
  rcases Nat.lt_trichotomy m n with hlt | heq | hgt
  · exact absurd hlt (hm.not_lt hv hn)
  · exact heq
  · exact absurd hgt (hn.not_lt hv hm)

def shortest (v : Nat → Nat) (n : Nat) : Nat → Nat
  | 0 => v n
  | j + 1 =>
      let unit := 10 ^ (j + 1)
      let down := v n / unit * unit
      let up := down + unit
      if Rounds v n up ∧ (¬Rounds v n down ∨ unit ≤ 2 * (v n - down)) then up
      else if Rounds v n down then down
      else shortest v n j

theorem rounds_shortest (hv : StrictMono v) (hn : 0 < n) (j : Nat) :
    Rounds v n (shortest v n j) := by
  induction j with
  | zero => exact rounds_self hv hn
  | succ j ih =>
      rw [shortest]
      split
      · next hup => exact hup.1
      · split
        · next hdown => exact hdown
        · exact ih

theorem shortest_inj (hv : StrictMono v) (hm : 0 < m) (hn : 0 < n) {j : Nat}
    (h : shortest v m j = shortest v n j) : m = n :=
  (h ▸ rounds_shortest hv hm j).unique hv (rounds_shortest hv hn j)

end Shortest
