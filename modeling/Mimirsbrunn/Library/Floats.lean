import Mathlib

namespace Floats
open Float.Model

theorem isNaN_of_unpacked_le {a b : UnpackedFloat} (h : a.le b = true) :
    a.isNaN = false ∧ b.isNaN = false := by
  cases a <;> cases b <;>
    simp_all [UnpackedFloat.le, UnpackedFloat.compare, UnpackedFloat.isNaN]

theorem isNaN_of_le {a b : Float} (h : a ≤ b) : a.isNaN = false ∧ b.isNaN = false :=
  isNaN_of_unpacked_le (of_decide_eq_true h)

theorem isNaN_of_le32 {a b : Float32} (h : a ≤ b) : a.isNaN = false ∧ b.isNaN = false :=
  isNaN_of_unpacked_le (of_decide_eq_true h)

theorem sign_compare_swap (s t : UnpackedFloat.Sign) : (compare s t).swap = compare t s := by
  cases s <;> cases t <;> rfl

theorem compare_swap (a b : UnpackedFloat) :
    b.compare a = (a.compare b).map Ordering.swap := by
  rcases a with ⟨_ | _⟩ | _ | ⟨s⟩ | ⟨_ | _, m, e, hm⟩ <;>
    rcases b with ⟨_ | _⟩ | _ | ⟨t⟩ | ⟨_ | _, m', e', hm'⟩ <;>
    simp [UnpackedFloat.compare, Ordering.swap_then, ← Std.OrientedCmp.eq_swap, sign_compare_swap]

theorem compare_eq_none {a b : UnpackedFloat} (h : a.compare b = none) :
    a.isNaN = true ∨ b.isNaN = true := by
  rcases a with ⟨_ | _⟩ | _ | ⟨s⟩ | ⟨_ | _, m, e, hm⟩ <;>
    rcases b with ⟨_ | _⟩ | _ | ⟨t⟩ | ⟨_ | _, m', e', hm'⟩ <;>
    simp_all [UnpackedFloat.compare, UnpackedFloat.isNaN]

def order (a b : Float) : Option Ordering := a.toModel.unpack.compare b.toModel.unpack

theorem order_swap (a b : Float) : order b a = (order a b).map Ordering.swap :=
  compare_swap _ _

theorem lt_iff {a b : Float} : a < b ↔ order a b = some .lt :=
  ⟨fun h => beq_iff_eq.mp (of_decide_eq_true h), fun h => decide_eq_true (beq_iff_eq.mpr h)⟩

theorem le_iff {a b : Float} : a ≤ b ↔ order a b = some .lt ∨ order a b = some .eq := by
  have unfolded : a ≤ b ↔ (order a b).any (·.isLE) = true :=
    ⟨of_decide_eq_true, decide_eq_true⟩
  rw [unfolded]
  rcases order a b with _ | _ | _ | _ <;> simp

theorem beq_iff {a b : Float} : (a == b) = true ↔ order a b = some .eq := by
  change (order a b == some .eq) = true ↔ _
  exact beq_iff_eq

theorem isNaN_of_lt {a b : Float} (h : a < b) : a.isNaN = false ∧ b.isNaN = false :=
  isNaN_of_le (le_iff.mpr (.inl (lt_iff.mp h)))

theorem lt_asymm {a b : Float} (h : a < b) : ¬b < a := by
  rw [lt_iff] at h ⊢
  rw [order_swap, h]
  simp

section Total

variable {a b : Float} (ha : a.isNaN = false) (hb : b.isNaN = false)
include ha hb

theorem le_of_not_lt (h : ¬a < b) : b ≤ a := by
  rw [lt_iff] at h
  rw [le_iff, order_swap]
  rcases hc : order a b with _ | _ | _ | _
  · rcases compare_eq_none hc with hnan | hnan
    · exact absurd (ha.symm.trans hnan) Bool.false_ne_true
    · exact absurd (hb.symm.trans hnan) Bool.false_ne_true
  all_goals simp_all

theorem beq_of_not_lt (h : ¬a < b) (h' : ¬b < a) : (a == b) = true := by
  rcases le_iff.mp (le_of_not_lt hb ha h') with hlt | heq
  · exact absurd (lt_iff.mpr hlt) h
  · exact beq_iff.mpr heq

end Total

theorem beq_self {a : Float} (ha : a.isNaN = false) : (a == a) = true :=
  Float.beq_self_iff.mpr (by simpa using ha)

theorem isNaN_of_isFinite {a : Float} (h : a.isFinite = true) : a.isNaN = false := by
  change a.toModel.unpack.isFinite = true at h
  change a.toModel.unpack.isNaN = false
  cases hu : a.toModel.unpack <;> simp_all [UnpackedFloat.isFinite, UnpackedFloat.isNaN]

theorem isFinite_of_unpacked_le {a b x : UnpackedFloat} (h : a.le x = true) (h' : x.le b = true)
    (ha : a.isFinite = true) (hb : b.isFinite = true) : x.isFinite = true := by
  rcases x with ⟨_ | _⟩ | _ | _ | _
  · cases a <;> simp_all [UnpackedFloat.le, UnpackedFloat.compare, UnpackedFloat.isFinite]
  · cases b <;> simp_all [UnpackedFloat.le, UnpackedFloat.compare, UnpackedFloat.isFinite]
  · simp [UnpackedFloat.le, UnpackedFloat.compare] at h'
  · rfl
  · rfl

theorem isFinite_of_le {a b x : Float} (h : a ≤ x) (h' : x ≤ b) (ha : a.isFinite = true)
    (hb : b.isFinite = true) : x.isFinite = true :=
  isFinite_of_unpacked_le (of_decide_eq_true h) (of_decide_eq_true h') ha hb

theorem isNaN_unpack (b : BitVec Format.binary64.numBits) :
    (UnpackedFloat.unpack Format.binary64 b).isNaN =
      (UnpackedFloat.unpackExponent b = -1#_ && UnpackedFloat.unpackMantissa b ≠ 0#_) := by
  unfold UnpackedFloat.unpack
  simp only
  split_ifs <;> simp_all [UnpackedFloat.isNaN]

theorem toNat_unpackExponent (b : BitVec Format.binary64.numBits) :
    (UnpackedFloat.unpackExponent b).toNat = b.toNat / 2 ^ 52 % 2 ^ 11 := by
  rw [UnpackedFloat.unpackExponent]
  simp only [BitVec.toNat_cast, BitVec.extractLsb_toNat, Nat.shiftRight_eq_div_pow]

theorem toNat_unpackMantissa (b : BitVec Format.binary64.numBits) :
    (UnpackedFloat.unpackMantissa b).toNat = b.toNat % 2 ^ 52 := by
  rw [UnpackedFloat.unpackMantissa]
  simp only [BitVec.toNat_cast, BitVec.extractLsb_toNat, Nat.shiftRight_zero]

theorem toBits_inj {x y : Float} (h : x.toBits.toNat = y.toBits.toNat) : x = y := by
  obtain ⟨⟨bits, valid⟩⟩ := x
  obtain ⟨⟨bits', valid'⟩⟩ := y
  obtain rfl : bits = bits' := UInt64.toNat_inj.mp h
  rfl

theorem NaN_unique {x y : Float} (hx : x.isNaN = true) (hy : y.isNaN = true) : x = y := by
  have packed {x : Float} (hx : x.isNaN = true) :
      x.toBits.toBitVec = UnpackedFloat.packedNaN Format.binary64 := by
    have hbits : (UnpackedFloat.unpack Format.binary64 x.toBits.toBitVec).isNaN = true := hx
    rw [isNaN_unpack] at hbits
    simp only [Bool.and_eq_true, decide_eq_true_eq] at hbits
    exact x.toModel.valid.eq_packedNaN hbits.1 hbits.2
  exact toBits_inj (congrArg BitVec.toNat ((packed hx).trans (packed hy).symm))

theorem infinite_of_unpack {b : BitVec Format.binary64.numBits}
    (hnan : (UnpackedFloat.unpack Format.binary64 b).isNaN = false)
    (h : ¬b.toNat % 2 ^ 63 < 2047 * 2 ^ 52) : b.toNat % 2 ^ 63 = 2047 * 2 ^ 52 := by
  have hlt : b.toNat < 2 ^ 64 := b.isLt
  have hexponent : UnpackedFloat.unpackExponent b = -1#_ := by
    refine BitVec.eq_of_toNat_eq ?_
    rw [toNat_unpackExponent]
    simp
    omega
  rw [isNaN_unpack, hexponent] at hnan
  have hmantissa : UnpackedFloat.unpackMantissa b = 0#_ := by simpa using hnan
  have hzero := congrArg BitVec.toNat hmantissa
  rw [toNat_unpackMantissa] at hzero
  simp at hzero
  omega

theorem infinite_bits {x : Float} (hx : x.isNaN = false)
    (h : ¬x.toBits.toNat % 2 ^ 63 < 2047 * 2 ^ 52) : x.toBits.toNat % 2 ^ 63 = 2047 * 2 ^ 52 :=
  infinite_of_unpack hx h

theorem isNaN_unpack_pack (f : UnpackedFloat) :
    (UnpackedFloat.unpack Format.binary64 (f.pack Format.binary64)).isNaN = f.isNaN := by
  rw [isNaN_unpack]
  fun_cases UnpackedFloat.pack Format.binary64 f with
  | case1 => rw [← isNaN_unpack, UnpackedFloat.unpack_packedNaN]
  | case2 s => simp [UnpackedFloat.packedInfinity, UnpackedFloat.isNaN]
  | case3 s => rw [← isNaN_unpack, UnpackedFloat.unpack_packedZero]
  | case4 s m e hm biased h => simp [UnpackedFloat.packedInfinity, UnpackedFloat.isNaN]
  | case5 s m e hm bits biased small normal =>
    have exponent : BitVec.ofNat Format.binary64.exponentBits biased ≠ -1#_ := by
      rw [ne_eq, ← BitVec.toNat_inj, BitVec.toNat_ofNat, BitVec.neg_one_eq_allOnes,
        BitVec.toNat_allOnes, Nat.mod_eq_of_lt (by omega)]
      omega
    rw [UnpackedFloat.unpackExponent_packComponents, decide_eq_false exponent]
    rfl
  | case6 s m e hm bits biased small subnormal => simp [UnpackedFloat.isNaN]

theorem isNaN_roundWithAccuracy (spec : Format) (s : UnpackedFloat.Sign) (m : Nat) (e : Int)
    (accuracy : UnpackedFloat.Accuracy) :
    (UnpackedFloat.roundWithAccuracy spec s m e accuracy).isNaN = false := by
  unfold UnpackedFloat.roundWithAccuracy
  dsimp only
  split_ifs <;> rfl

theorem isNaN_unpacked_div (spec : Format) (a : UnpackedFloat) (s : UnpackedFloat.Sign) (m : Nat)
    (e : Int) (hm : 0 < m) : (a.div spec (.finite s m e hm)).isNaN = a.isNaN := by
  cases a with
  | finite => exact isNaN_roundWithAccuracy ..
  | _ => rfl

theorem unpack_zero : (0 : Float).toModel.unpack = .zero .positive := rfl

theorem isNaN_div {a b : Float} (hb : b.isFinite = true) (hpos : 0 < b) :
    (a / b).isNaN = a.isNaN := by
  have packed := isNaN_unpack_pack (a.toModel.unpack.div Format.binary64 b.toModel.unpack)
  change (a / b).isNaN = _ at packed
  rw [lt_iff, order, unpack_zero] at hpos
  change b.toModel.unpack.isFinite = true at hb
  cases hu : b.toModel.unpack with
  | finite s m e hm => rw [packed, hu, isNaN_unpacked_div]; rfl
  | _ => simp [hu, UnpackedFloat.compare, UnpackedFloat.isFinite] at hpos hb

end Floats
