import Mathlib.Algebra.Field.Basic

-- Exact arithmetic in which a division by zero has no result.
def Exact (K : Type) : Type := Option K

namespace Exact

variable {K : Type}

def of (x : K) : Exact K := some x

def undefined : Exact K := none

def lift (op : K → K → K) : Exact K → Exact K → Exact K
  | some x, some y => of (op x y)
  | _, _ => undefined

def map (f : K → K) : Exact K → Exact K
  | some x => of (f x)
  | none => undefined

def isDefined : Exact K → Bool
  | some _ => true
  | none => false

theorem of_inj {x y : K} : (of x = of y) ↔ x = y := Option.some_inj

theorem of_ne_undefined (x : K) : of x ≠ undefined := Option.some_ne_none x

section Arithmetic

variable [Field K]

instance {n : Nat} [OfNat K n] : OfNat (Exact K) n := ⟨of (OfNat.ofNat n)⟩
instance : Add (Exact K) := ⟨lift (· + ·)⟩
instance : Sub (Exact K) := ⟨lift (· - ·)⟩
instance : Mul (Exact K) := ⟨lift (· * ·)⟩

theorem one_eq : (1 : Exact K) = of 1 := rfl
theorem of_add (x y : K) : of x + of y = of (x + y) := rfl
theorem of_sub (x y : K) : of x - of y = of (x - y) := rfl
theorem of_mul (x y : K) : of x * of y = of (x * y) := rfl
theorem undefined_mul (x : Exact K) : undefined * x = undefined := rfl

theorem add_undefined (x : Exact K) : x + undefined = undefined := by
  cases x <;> rfl

variable [DecidableEq K]

def divide : Exact K → Exact K → Exact K
  | some x, some y => if y = 0 then undefined else of (x / y)
  | _, _ => undefined

instance : Div (Exact K) := ⟨divide⟩

theorem of_div (x : K) {y : K} (h : y ≠ 0) : of x / of y = of (x / y) := if_neg h

theorem of_div_zero (x : K) : of x / of (0 : K) = undefined := if_pos rfl

end Arithmetic

end Exact
