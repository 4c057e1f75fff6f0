import Mathlib.Data.List.Basic

-- Texts measured and cut in the bytes of their UTF-8 form.
namespace Utf8

variable {text : List Char} {n : Nat}

def size : List Char → Nat
  | [] => 0
  | c :: text => c.utf8Size + size text

def sliceTo : Nat → List Char → Option (List Char)
  | 0, _ => some []
  | _ + 1, [] => none
  | n + 1, c :: text =>
      if c.utf8Size ≤ n + 1 then (sliceTo (n + 1 - c.utf8Size) text).map (c :: ·) else none

def Ascii (text : List Char) : Prop := ∀ c ∈ text, c.utf8Size = 1

theorem ascii_of_all (h : text.all (fun c => c.utf8Size == 1) = true) : Ascii text :=
  fun c hc => beq_iff_eq.mp (List.all_eq_true.mp h c hc)

theorem size_of_ascii (h : Ascii text) : size text = text.length := by
  induction text with
  | nil => rfl
  | cons c text ih =>
      have hrest := ih fun d hd => h d (List.mem_cons_of_mem c hd)
      rw [size, hrest, h c List.mem_cons_self, List.length_cons, Nat.add_comm]

theorem sliceTo_of_ascii (h : Ascii text) (hn : n ≤ text.length) :
    sliceTo n text = some (text.take n) := by
  induction text generalizing n with
  | nil =>
      obtain rfl := Nat.le_zero.mp hn
      rfl
  | cons c text ih =>
      cases n with
      | zero => rfl
      | succ n =>
          have hc := h c List.mem_cons_self
          have hrest := ih (fun d hd => h d (List.mem_cons_of_mem c hd)) (Nat.le_of_succ_le_succ hn)
          rw [sliceTo, hc, if_pos (Nat.le_add_left 1 n), Nat.add_sub_cancel, hrest]
          rfl

def Boundary (n : Nat) (text : List Char) : Prop :=
  ∃ front back, text = front ++ back ∧ size front = n

theorem boundary_zero (text : List Char) : Boundary 0 text := ⟨[], text, rfl, rfl⟩

theorem boundary_nil : ¬Boundary (n + 1) [] := by
  rintro ⟨front, back, htext, hsize⟩
  obtain ⟨rfl, _⟩ := List.append_eq_nil_iff.mp htext.symm
  cases hsize

theorem boundary_cons {c : Char} (hn : 0 < n) :
    Boundary n (c :: text) ↔ c.utf8Size ≤ n ∧ Boundary (n - c.utf8Size) text := by
  constructor
  · rintro ⟨front, back, htext, rfl⟩
    cases front with
    | nil => exact absurd hn (Nat.lt_irrefl 0)
    | cons d front =>
        obtain ⟨rfl, rfl⟩ := List.cons.inj htext
        exact ⟨Nat.le_add_right _ _, front, back, rfl, (Nat.add_sub_cancel_left ..).symm⟩
  · rintro ⟨hle, front, back, rfl, hsize⟩
    refine ⟨c :: front, back, rfl, ?_⟩
    rw [size, hsize, Nat.add_sub_cancel' hle]

theorem sliceTo_eq_none : sliceTo n text = none ↔ ¬Boundary n text := by
  induction text generalizing n with
  | nil =>
      cases n with
      | zero => exact iff_of_false nofun (not_not.mpr (boundary_zero []))
      | succ n => exact iff_of_true rfl boundary_nil
  | cons c text ih =>
      cases n with
      | zero => exact iff_of_false nofun (not_not.mpr (boundary_zero _))
      | succ n =>
          rw [sliceTo, boundary_cons (Nat.succ_pos n)]
          split
          · next hle => rw [Option.map_eq_none_iff, ih, and_iff_right hle]
          · next hgt => exact iff_of_true rfl fun h => hgt h.1

theorem guarded_slice_eq_none {α : Type} {f : List Char → α} {e : α} :
    (if n ≤ size text then (sliceTo n text).map f else some e) = none ↔
      n ≤ size text ∧ ¬Boundary n text := by
  split
  · next hlen => rw [Option.map_eq_none_iff, sliceTo_eq_none, and_iff_right hlen]
  · next hlen => exact iff_of_false (Option.some_ne_none e) fun h => hlen h.1

end Utf8
