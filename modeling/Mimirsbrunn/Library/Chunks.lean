import Mathlib.Data.List.Basic

namespace Chunks

variable {α : Type}

def chunksFrom (capacity : Nat) (buffer : List α) : List α → List (List α)
  | [] => if buffer.isEmpty then [] else [buffer]
  | x :: xs =>
      if capacity ≤ buffer.length + 1 then (buffer ++ [x]) :: chunksFrom capacity [] xs
      else chunksFrom capacity (buffer ++ [x]) xs

def chunks (capacity : Nat) (xs : List α) : List (List α) := chunksFrom capacity [] xs

theorem chunksFrom_flatten (capacity : Nat) (buffer xs : List α) :
    (chunksFrom capacity buffer xs).flatten = buffer ++ xs := by
  induction xs generalizing buffer with
  | nil =>
      simp only [chunksFrom]
      split
      · next h => simp [List.isEmpty_iff.mp h]
      · simp
  | cons x xs ih =>
      simp only [chunksFrom]
      split <;> simp [ih]

theorem chunks_flatten (capacity : Nat) (xs : List α) : (chunks capacity xs).flatten = xs := by
  simp [chunks, chunksFrom_flatten]

end Chunks
