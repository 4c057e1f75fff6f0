import Mathlib.Data.List.Perm.Basic
import Mimirsbrunn.Library.Fused
import Mimirsbrunn.Library.Regex

namespace Mimirsbrunn.Imports
open Regex Fused

-- A file or a link to one: what opening it gives, then record by record the CSV reader.
structure File (T : Type) where
  name : List UInt8
  opened : Except Text (List (Except Text T))

-- A directory whose listing fails may still hold files; `other` is neither, as a dangling link.
inductive Entry (T : Type) where
  | file (file : File T)
  | dir (unlisted : Option Text) (entries : List (Entry T))
  | other (found : Bool) (error : Text)

namespace Entry

variable {T : Type}

mutual

def size : Entry T → Nat
  | .file _ => 1
  | .dir _ entries => sizes entries + 1
  | .other _ _ => 1

def sizes : List (Entry T) → Nat
  | [] => 0
  | entry :: entries => entry.size + sizes entries

end

theorem sizes_append (xs ys : List (Entry T)) : sizes (xs ++ ys) = sizes xs + sizes ys := by
  induction xs with
  | nil => rw [List.nil_append, sizes, Nat.zero_add]
  | cons entry xs ih => rw [List.cons_append, sizes, sizes, ih, Nat.add_assoc]

theorem sizes_reverse (xs : List (Entry T)) : sizes xs.reverse = sizes xs := by
  induction xs with
  | nil => rfl
  | cons entry xs ih =>
      rw [List.reverse_cons, sizes_append, ih, sizes, sizes, sizes]
      omega

-- The head of the list is the top of the heap.
def extend (heap entries : List (Entry T)) : List (Entry T) := entries.reverse ++ heap

theorem sizes_extend (heap entries : List (Entry T)) :
    sizes (extend heap entries) = sizes entries + sizes heap := by
  rw [extend, sizes_append, sizes_reverse]

def unfoldHeap : List (Entry T) → List (Except Text (File T))
  | [] => []
  | .file f :: heap => .ok f :: unfoldHeap heap
  | .dir none entries :: heap => unfoldHeap (extend heap entries)
  | .dir (some error) _ :: _ => [.error error]
  | .other _ error :: _ => [.error error]
termination_by heap => sizes heap
decreasing_by
  · rw [sizes, size]
    omega
  · rw [sizes_extend, sizes, size]
    omega

def walkFilesRecursive (path : Entry T) : List (Except Text (File T)) := unfoldHeap [path]

mutual

def files : Entry T → List (File T)
  | .file f => [f]
  | .dir _ entries => filesOf entries
  | .other _ _ => []

def filesOf : List (Entry T) → List (File T)
  | [] => []
  | entry :: entries => entry.files ++ filesOf entries

end

mutual

def steps : Entry T → List (Except Text (File T))
  | .file f => [.ok f]
  | .dir none entries => stepsOf entries
  | .dir (some error) entries => .error error :: stepsOf entries
  | .other _ error => [.error error]

def stepsOf : List (Entry T) → List (Except Text (File T))
  | [] => []
  | entry :: entries => stepsOf entries ++ entry.steps

end

theorem stepsOf_eq (entries : List (Entry T)) :
    stepsOf entries = entries.reverse.flatMap steps := by
  induction entries with
  | nil => rfl
  | cons entry entries ih =>
      rw [stepsOf, ih, List.reverse_cons, List.flatMap_append, List.flatMap_singleton]

theorem unfoldHeap_eq (heap : List (Entry T)) :
    unfoldHeap heap = upToError (heap.flatMap steps) := by
  fun_induction unfoldHeap heap with
  | case1 => rfl
  | case2 heap f ih => rw [List.flatMap_cons, steps, ih, List.singleton_append, upToError_ok]
  | case3 entries heap ih =>
      rw [ih, extend, List.flatMap_append, List.flatMap_cons, steps, stepsOf_eq]
  | case4 error entries heap => rw [List.flatMap_cons, steps, List.cons_append, upToError_error]
  | case5 found error heap =>
      rw [List.flatMap_cons, steps, List.singleton_append, upToError_error]

theorem walkFilesRecursive_eq (path : Entry T) :
    path.walkFilesRecursive = upToError path.steps := by
  rw [walkFilesRecursive, unfoldHeap_eq, List.flatMap_singleton]

mutual

theorem steps_perm : ∀ entry : Entry T, (oks entry.steps).Perm entry.files
  | .file _ => .refl _
  | .dir none entries => by
      rw [steps, files]
      exact stepsOf_perm entries
  | .dir (some error) entries => by
      rw [steps, files, oks_error]
      exact stepsOf_perm entries
  | .other _ _ => .refl _

theorem stepsOf_perm : ∀ entries : List (Entry T), (oks (stepsOf entries)).Perm (filesOf entries)
  | [] => .refl _
  | entry :: entries => by
      rw [stepsOf, filesOf, oks_append]
      exact ((stepsOf_perm entries).append (steps_perm entry)).trans List.perm_append_comm

end

end Entry

end Mimirsbrunn.Imports
