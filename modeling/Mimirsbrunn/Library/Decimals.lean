import Mathlib.Algebra.Order.Monoid.Unbundled.Basic
import Mathlib.Tactic.Ring
import Mimirsbrunn.Library.Numeral

-- Decimal fractions written out: `c` stands for `c / 10 ^ places`.
namespace Decimals

def digits : Nat → Nat → List Char → List Char
  | 0, _, rest => rest
  | places + 1, c, rest => digits places (c / 10) (Nat.digitChar (c % 10) :: rest)

def fixed (places c : Nat) : List Char :=
  Nat.toDigits 10 (c / 10 ^ places) ++
    if places = 0 then [] else '.' :: digits places (c % 10 ^ places) []

def plain : Nat → Nat → List Char
  | 0, c => fixed 0 c
  | places + 1, c => if c % 10 = 0 then plain places (c / 10) else fixed (places + 1) c

def roundHalfEven (n d : Nat) : Nat :=
  if d < 2 * (n % d) ∨ (d = 2 * (n % d) ∧ n / d % 2 = 1) then n / d + 1 else n / d

variable {places places' c c' : Nat} {rest rest' : List Char}

theorem length_digits (places c : Nat) (rest : List Char) :
    (digits places c rest).length = places + rest.length := by
  induction places generalizing c rest with
  | zero => rw [digits, Nat.zero_add]
  | succ places ih =>
      rw [digits, ih, List.length_cons]
      omega

theorem digits_append (places c : Nat) (rest : List Char) :
    digits places c rest = digits places c [] ++ rest := by
  induction places generalizing c rest with
  | zero => rfl
  | succ places ih =>
      rw [digits, digits, ih, ih (c / 10) [_], List.append_assoc, List.singleton_append]

theorem digitChar_inj {d d' : Nat} (hd : d < 10) (hd' : d' < 10)
    (h : Nat.digitChar d = Nat.digitChar d') : d = d' := by
  have htoNat := congrArg Char.toNat h
  rw [Nat.toNat_digitChar_of_lt_ten hd, Nat.toNat_digitChar_of_lt_ten hd'] at htoNat
  omega

theorem digits_inj (hc : c < 10 ^ places) (hc' : c' < 10 ^ places)
    (h : digits places c [] = digits places c' []) : c = c' := by
  induction places generalizing c c' with
  | zero => omega
  | succ places ih =>
      rw [digits, digits, digits_append places (c / 10), digits_append places (c' / 10)] at h
      obtain ⟨hfront, hlast⟩ := List.append_inj' h rfl
      rw [pow_succ] at hc hc'
      have hquot := ih (by omega) (by omega) hfront
      have hrem := digitChar_inj (Nat.mod_lt c (by decide)) (Nat.mod_lt c' (by decide))
        (List.cons.inj hlast).1
      omega

theorem fixed_pos (hp : places ≠ 0) : fixed places c =
    Nat.toDigits 10 (c / 10 ^ places) ++ '.' :: digits places (c % 10 ^ places) [] := by
  rw [fixed, if_neg hp]

theorem fixed_zero (c : Nat) : fixed 0 c = Nat.toDigits 10 c := by
  rw [fixed, if_pos rfl, List.append_nil, pow_zero, Nat.div_one]

theorem point_notMem_toDigits (n : Nat) : '.' ∉ Nat.toDigits 10 n :=
  Numeral.separator_notMem_toDigits (by decide) n

theorem fixed_inj (h : fixed places c = fixed places' c') : places = places' ∧ c = c' := by
  by_cases hp : places = 0
  · subst hp
    rw [fixed_zero] at h
    by_cases hp' : places' = 0
    · subst hp'
      rw [fixed_zero] at h
      exact ⟨rfl, Numeral.toDigits_injective h⟩
    · rw [fixed_pos hp'] at h
      exact absurd h.symm (Numeral.split_absent (point_notMem_toDigits c))
  · rw [fixed_pos hp] at h
    by_cases hp' : places' = 0
    · subst hp'
      rw [fixed_zero] at h
      exact absurd h (Numeral.split_absent (point_notMem_toDigits c'))
    · rw [fixed_pos hp'] at h
      obtain ⟨hint, hfrac⟩ := Numeral.split_at (point_notMem_toDigits _) (point_notMem_toDigits _) h
      have hlen := congrArg List.length hfrac
      rw [length_digits, length_digits] at hlen
      obtain rfl : places = places' := by simpa using hlen
      have hpos : 0 < 10 ^ places := Nat.pow_pos (by decide)
      have hrem := digits_inj (Nat.mod_lt c hpos) (Nat.mod_lt c' hpos) hfrac
      have hquot := Numeral.toDigits_injective hint
      exact ⟨rfl, by rw [← Nat.div_add_mod c (10 ^ places), hquot, hrem, Nat.div_add_mod]⟩

theorem plain_spec (places c : Nat) : ∃ kept c', kept ≤ places ∧
    c = c' * 10 ^ (places - kept) ∧ plain places c = fixed kept c' := by
  induction places generalizing c with
  | zero => exact ⟨0, c, Nat.le_refl 0, (Nat.mul_one c).symm, rfl⟩
  | succ places ih =>
      rw [plain]
      split
      · next hzero =>
        obtain ⟨kept, c', hle, hc, htext⟩ := ih (c / 10)
        refine ⟨kept, c', Nat.le_succ_of_le hle, ?_, htext⟩
        rw [Nat.succ_sub hle, pow_succ, ← Nat.mul_assoc, ← hc]
        omega
      · exact ⟨places + 1, c, Nat.le_refl _, by rw [Nat.sub_self, pow_zero, Nat.mul_one], rfl⟩

theorem plain_inj (h : plain places c = plain places c') : c = c' := by
  obtain ⟨kept, d, _, rfl, htext⟩ := plain_spec places c
  obtain ⟨kept', d', _, rfl, htext'⟩ := plain_spec places c'
  obtain ⟨rfl, rfl⟩ := fixed_inj (htext.symm.trans (h.trans htext'))
  rfl

def Plain (char : Char) : Prop := char = '.' ∨ char.isDigit = true

instance : DecidablePred Plain := fun char =>
  inferInstanceAs (Decidable (char = '.' ∨ char.isDigit = true))

theorem plain_of_mem_toDigits {n : Nat} {char : Char} (h : char ∈ Nat.toDigits 10 n) : Plain char :=
  .inr (Nat.isDigit_of_mem_toDigits (by decide) (by decide) h)

theorem plain_of_mem_digits {char : Char} (hrest : ∀ d ∈ rest, Plain d)
    (h : char ∈ digits places c rest) : Plain char := by
  induction places generalizing c rest with
  | zero => exact hrest char h
  | succ places ih =>
      refine ih (fun d hd => ?_) h
      rcases List.mem_cons.mp hd with rfl | hd
      · have hlt : c % 10 < 10 := Nat.mod_lt c (by decide)
        refine plain_of_mem_toDigits (n := c % 10) ?_
        rw [Nat.toDigits_of_lt_base hlt]
        exact List.mem_cons_self
      · exact hrest d hd

theorem plain_of_mem_fixed {char : Char} (h : char ∈ fixed places c) : Plain char := by
  rcases List.mem_append.mp h with h | h
  · exact plain_of_mem_toDigits h
  · split at h
    · cases h
    · rcases List.mem_cons.mp h with rfl | h
      · exact .inl rfl
      · exact plain_of_mem_digits (fun d hd => absurd hd List.not_mem_nil) h

theorem plain_of_mem_plain {char : Char} (h : char ∈ plain places c) : Plain char := by
  obtain ⟨kept, c', _, _, htext⟩ := plain_spec places c
  exact plain_of_mem_fixed (htext ▸ h)

end Decimals
