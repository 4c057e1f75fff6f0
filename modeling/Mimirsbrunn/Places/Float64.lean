import Mimirsbrunn.Library.Decimals
import Mimirsbrunn.Library.Floats
import Mimirsbrunn.Library.Regex
import Mimirsbrunn.Library.Shortest

-- How a formatting macro writes an `f64`.
namespace Mimirsbrunn.F64
open Regex Decimals Shortest Float.Model

inductive Decoded where
  | NaN
  | infinite (negative : Bool)
  | finite (negative : Bool) (n : Nat)
  deriving DecidableEq, Repr

def decode (x : Float) : Decoded :=
  let bits := x.toBits.toNat
  if x.isNaN then .NaN
  else if bits % 2 ^ 63 < 2047 * 2 ^ 52 then .finite (2 ^ 63 ≤ bits) (bits % 2 ^ 63)
  else .infinite (2 ^ 63 ≤ bits)

-- The number of a rank in units of `2 ^ -1074`, the smallest one above zero.
def magnitude (n : Nat) : Nat :=
  if n / 2 ^ 52 = 0 then n else (2 ^ 52 + n % 2 ^ 52) * 2 ^ (n / 2 ^ 52 - 1)

def value (n : Nat) : Nat := magnitude n * 5 ^ 1074

def signed (negative : Bool) (text : Text) : Text := if negative then '-' :: text else text

def write (render : Nat → Text) : Decoded → Text
  | .NaN => "NaN".toList
  | .infinite negative => signed negative "inf".toList
  | .finite negative n => signed negative (render n)

def shown (n : Nat) : Nat := if n = 0 then 0 else shortest value n 1383

-- `{}`: the fewest digits that no other number is nearer to, without an exponent.
def display (x : Float) : Text := write (fun n => plain 1074 (shown n)) (decode x)

def rounded (precision n : Nat) : Nat :=
  roundHalfEven (value n * 10 ^ (precision - 1074)) (10 ^ (1074 - precision))

def roundTo (precision : Nat) (x : Float) : Decoded :=
  match decode x with
  | .finite negative n => .finite negative (rounded precision n)
  | decoded => decoded

def displayPrecision (precision : Nat) (x : Float) : Text :=
  write (fixed precision) (roundTo precision x)

theorem magnitude_lt_succ (n : Nat) : magnitude n < magnitude (n + 1) := by
  have hn := Nat.div_add_mod n (2 ^ 52)
  rcases Nat.lt_or_eq_of_le (Nat.succ_le_of_lt (Nat.mod_lt n (Nat.two_pow_pos 52))) with hlt | hlast
  · have hquot : (n + 1) / 2 ^ 52 = n / 2 ^ 52 := by omega
    have hrem : (n + 1) % 2 ^ 52 = n % 2 ^ 52 + 1 := by omega
    rw [magnitude, magnitude, hquot, hrem]
    split
    · exact Nat.lt_add_one n
    · exact Nat.mul_lt_mul_of_pos_right (by omega) (Nat.two_pow_pos _)
  · have hquot : (n + 1) / 2 ^ 52 = n / 2 ^ 52 + 1 := by omega
    have hrem : (n + 1) % 2 ^ 52 = 0 := by omega
    rw [magnitude, magnitude, hquot, hrem, if_neg (Nat.succ_ne_zero _), Nat.add_zero,
      Nat.add_sub_cancel]
    split
    · next hzero =>
      rw [hzero]
      omega
    · next hpos =>
      obtain ⟨e, he⟩ := Nat.exists_eq_succ_of_ne_zero hpos
      have hdouble : 2 ^ 52 * 2 ^ (e + 1) = 2 ^ 53 * 2 ^ e := by ring
      rw [he, Nat.succ_sub_one, Nat.succ_eq_add_one, hdouble]
      exact Nat.mul_lt_mul_of_pos_right (by omega) (Nat.two_pow_pos e)

theorem value_strictMono : StrictMono value := by
  have hpos : ∀ e, 0 < 5 ^ e := fun e => Nat.pow_pos (by decide)
  exact strictMono_nat_of_lt_succ fun n =>
    Nat.mul_lt_mul_of_pos_right (magnitude_lt_succ n) (hpos 1074)

theorem shown_inj {m n : Nat} (h : shown m = shown n) : m = n := by
  have pos_of_rounds {n : Nat} (hn : 0 < n) : shortest value n 1383 ≠ 0 := by
    intro hzero
    have hrounds := (rounds_shortest value_strictMono hn 1383).le
    have habove := value_strictMono hn
    rw [hzero] at hrounds
    omega
  rcases Nat.eq_zero_or_pos m with rfl | hm
  · rcases Nat.eq_zero_or_pos n with rfl | hn
    · rfl
    · rw [shown, shown, if_pos rfl, if_neg hn.ne'] at h
      exact absurd h.symm (pos_of_rounds hn)
  · rcases Nat.eq_zero_or_pos n with rfl | hn
    · rw [shown, shown, if_pos rfl, if_neg hm.ne'] at h
      exact absurd h (pos_of_rounds hm)
    · rw [shown, shown, if_neg hm.ne', if_neg hn.ne'] at h
      exact shortest_inj value_strictMono hm hn h

theorem signed_inj {negative negative' : Bool} {text text' : Text} (ht : '-' ∉ text)
    (ht' : '-' ∉ text') (h : signed negative text = signed negative' text') :
    negative = negative' ∧ text = text' := by
  cases negative <;> cases negative'
  · exact ⟨rfl, h⟩
  · have htext : text = '-' :: text' := h
    exact absurd (htext ▸ List.mem_cons_self) ht
  · have htext : '-' :: text = text' := h
    exact absurd (htext ▸ List.mem_cons_self) ht'
  · exact ⟨rfl, (List.cons.inj h).2⟩

theorem inf_letters (negative : Bool) :
    'N' ∉ signed negative "inf".toList ∧ 'i' ∈ signed negative "inf".toList := by
  cases negative <;> decide

section Write

variable {render : Nat → Text} (hplain : ∀ n, ∀ c ∈ render n, Plain c)
include hplain

theorem notMem_render {c : Char} (hc : ¬Plain c) (n : Nat) : c ∉ render n :=
  fun h => hc (hplain n c h)

theorem notMem_signed_render {c : Char} (hc : ¬Plain c) (hminus : c ≠ '-') (negative : Bool)
    (n : Nat) : c ∉ signed negative (render n) := by
  intro h
  cases negative with
  | false => exact notMem_render hplain hc n h
  | true =>
      rcases List.mem_cons.mp h with heq | h
      · exact hminus heq
      · exact notMem_render hplain hc n h

theorem mem_write_NaN {d : Decoded} : 'N' ∈ write render d ↔ d = .NaN := by
  cases d with
  | NaN => exact iff_of_true (show 'N' ∈ "NaN".toList by decide) rfl
  | infinite negative => exact iff_of_false (inf_letters negative).1 nofun
  | finite negative n =>
      exact iff_of_false (notMem_signed_render hplain (by decide) (by decide) negative n) nofun

theorem mem_write_infinite {d : Decoded} :
    'i' ∈ write render d ↔ ∃ negative, d = .infinite negative := by
  cases d with
  | NaN => exact iff_of_false (show 'i' ∉ "NaN".toList by decide) nofun
  | infinite negative => exact iff_of_true (inf_letters negative).2 ⟨negative, rfl⟩
  | finite negative n =>
      exact iff_of_false (notMem_signed_render hplain (by decide) (by decide) negative n) nofun

theorem write_inj (hinj : ∀ m n, render m = render n → m = n) {d d' : Decoded}
    (h : write render d = write render d') : d = d' := by
  have hNaN : d = .NaN ↔ d' = .NaN := by
    rw [← mem_write_NaN hplain, h, mem_write_NaN hplain]
  have hinf : (∃ negative, d = .infinite negative) ↔ ∃ negative, d' = .infinite negative := by
    rw [← mem_write_infinite hplain, h, mem_write_infinite hplain]
  cases d with
  | NaN => exact (hNaN.mp rfl).symm
  | infinite negative =>
      obtain ⟨negative', rfl⟩ := hinf.mp ⟨negative, rfl⟩
      rw [(signed_inj (by decide) (by decide) h).1]
  | finite negative n =>
      cases d' with
      | NaN => exact absurd (hNaN.mpr rfl) nofun
      | infinite negative' => exact absurd (hinf.mpr ⟨negative', rfl⟩) nofun
      | finite negative' n' =>
          obtain ⟨rfl, htext⟩ := signed_inj (notMem_render hplain (by decide) n)
            (notMem_render hplain (by decide) n') h
          rw [hinj n n' htext]

theorem notMem_write {c : Char} (hc : ¬Plain c) (hletters : c ∉ "-NaNinf".toList) (d : Decoded) :
    c ∉ write render d := by
  cases d with
  | NaN => exact fun h => hletters (List.mem_of_mem_drop (i := 1) (List.mem_of_mem_take (i := 3) h))
  | infinite negative =>
      intro h
      cases negative with
      | false => exact hletters (List.mem_of_mem_drop (i := 4) h)
      | true =>
          rcases List.mem_cons.mp h with rfl | h
          · exact hletters List.mem_cons_self
          · exact hletters (List.mem_of_mem_drop (i := 4) h)
  | finite negative n =>
      refine notMem_signed_render hplain hc ?_ negative n
      rintro rfl
      exact hletters List.mem_cons_self

end Write

theorem decode_cases (x : Float) : (x.isNaN = true ∧ decode x = .NaN) ∨
    decode x = .finite (2 ^ 63 ≤ x.toBits.toNat) (x.toBits.toNat % 2 ^ 63) ∨
    (x.toBits.toNat % 2 ^ 63 = 2047 * 2 ^ 52 ∧
      decode x = .infinite (2 ^ 63 ≤ x.toBits.toNat)) := by
  cases hnan : x.isNaN with
  | true => exact .inl ⟨rfl, by rw [decode, hnan, if_pos rfl]⟩
  | false =>
      by_cases hfin : x.toBits.toNat % 2 ^ 63 < 2047 * 2 ^ 52
      · exact .inr (.inl (by rw [decode, hnan, if_neg Bool.false_ne_true, if_pos hfin]))
      · exact .inr (.inr ⟨Floats.infinite_bits hnan hfin,
          by rw [decode, hnan, if_neg Bool.false_ne_true, if_neg hfin]⟩)

theorem bits_eq {x y : Float}
    (hsign : decide (2 ^ 63 ≤ x.toBits.toNat) = decide (2 ^ 63 ≤ y.toBits.toNat))
    (hrank : x.toBits.toNat % 2 ^ 63 = y.toBits.toNat % 2 ^ 63) : x = y := by
  have hx := x.toBits.toNat_lt
  have hy := y.toBits.toNat_lt
  have hnegative := decide_eq_decide.mp hsign
  refine Floats.toBits_inj ?_
  omega

theorem decode_inj {x y : Float} (h : decode x = decode y) : x = y := by
  rcases decode_cases x with ⟨hnan, hx⟩ | hx | ⟨hrank, hx⟩
  · rcases decode_cases y with ⟨hnan', _⟩ | hy | ⟨_, hy⟩
    · exact Floats.NaN_unique hnan hnan'
    · rw [hx, hy] at h
      cases h
    · rw [hx, hy] at h
      cases h
  · rcases decode_cases y with ⟨_, hy⟩ | hy | ⟨_, hy⟩
    · rw [hx, hy] at h
      cases h
    · rw [hx, hy] at h
      obtain ⟨hsign, hrank⟩ := Decoded.finite.inj h
      exact bits_eq hsign hrank
    · rw [hx, hy] at h
      cases h
  · rcases decode_cases y with ⟨_, hy⟩ | hy | ⟨hrank', hy⟩
    · rw [hx, hy] at h
      cases h
    · rw [hx, hy] at h
      cases h
    · rw [hx, hy] at h
      exact bits_eq (Decoded.infinite.inj h) (hrank.trans hrank'.symm)

theorem display_inj {x y : Float} (h : display x = display y) : x = y :=
  decode_inj (write_inj (fun _ _ => plain_of_mem_plain)
    (fun _ _ heq => shown_inj (plain_inj heq)) h)

example : display 2.37715 = "2.37715".toList := by decide +kernel

theorem displayPrecision_inj {precision : Nat} {x y : Float}
    (h : displayPrecision precision x = displayPrecision precision y) :
    roundTo precision x = roundTo precision y :=
  write_inj (fun _ _ => plain_of_mem_fixed) (fun _ _ heq => (fixed_inj heq).2) h

theorem notMem_display {c : Char} (hc : ¬Plain c) (hletters : c ∉ "-NaNinf".toList) (x : Float) :
    c ∉ display x :=
  notMem_write (fun _ _ => plain_of_mem_plain) hc hletters (decode x)

theorem notMem_displayPrecision {c : Char} (hc : ¬Plain c) (hletters : c ∉ "-NaNinf".toList)
    (precision : Nat) (x : Float) : c ∉ displayPrecision precision x :=
  notMem_write (fun _ _ => plain_of_mem_fixed) hc hletters (roundTo precision x)

end Mimirsbrunn.F64
