import Mathlib.Data.List.Basic
import Mathlib.Data.Option.Basic

-- Streams that end at their first error, and tasks that are joined until one of them panics.
namespace Fused

variable {ε α : Type}

section Errors

variable {xs ys : List (Except ε α)} {e : ε} {a : α}

def upToError : List (Except ε α) → List (Except ε α)
  | [] => []
  | .ok a :: xs => .ok a :: upToError xs
  | .error e :: _ => [.error e]

def oks (xs : List (Except ε α)) : List α := xs.filterMap Except.toOption

theorem upToError_ok : upToError (.ok a :: xs) = .ok a :: upToError xs := rfl

theorem upToError_error : upToError (.error e :: xs) = [.error e] := rfl

theorem oks_ok : oks (.ok a :: xs) = a :: oks xs := rfl

theorem oks_error : oks (.error e :: xs) = oks xs := rfl

theorem oks_append : oks (xs ++ ys) = oks xs ++ oks ys := List.filterMap_append

def behindError : List (Except ε α) → List (Except ε α)
  | [] => []
  | .ok _ :: xs => behindError xs
  | .error _ :: xs => xs

theorem upToError_append_behind (xs : List (Except ε α)) : upToError xs ++ behindError xs = xs := by
  fun_induction upToError xs with
  | case1 => rfl
  | case2 a xs ih => rw [behindError, List.cons_append, ih]
  | case3 e xs => rfl

theorem behindError_split (before after : List (Except ε α)) (e : ε) :
    ∃ more, behindError (before ++ .error e :: after) = more ++ after := by
  induction before with
  | nil => exact ⟨[], rfl⟩
  | cons x before ih =>
      cases x with
      | ok a => exact ih
      | error e' => exact ⟨before ++ [.error e], by simp [behindError]⟩

theorem behindError_spec (xs : List (Except ε α)) :
    behindError xs = [] ∨ ∃ before e, xs = before ++ .error e :: behindError xs := by
  induction xs with
  | nil => exact .inl rfl
  | cons x xs ih =>
      cases x with
      | error e => exact .inr ⟨[], e, rfl⟩
      | ok a =>
          rcases ih with h | ⟨before, e, h⟩
          · exact .inl h
          · exact .inr ⟨.ok a :: before, e, by rw [behindError, List.cons_append, ← h]⟩

end Errors

section Tasks

variable {n : Nat} {tasks : List (Option (List α))} {out : List α}

-- What a stream yields that joins tasks in their order and polls `n` of them at once: a task that
-- panics ends it as soon as it is polled, behind those that are still to be yielded.
def Driven (n : Nat) (tasks : List (Option (List α))) (out : List α) : Prop :=
  (∃ outs : List (List α), tasks = outs.map some ∧ out = outs.flatten) ∨
    ∃ (outs : List (List α)) (ahead rest : List (Option (List α))),
      tasks = outs.map some ++ ahead ++ none :: rest ∧ ahead.length < max 1 n ∧
        out = outs.flatten

theorem split_panic (tasks : List (Option α)) :
    (∃ outs : List α, tasks = outs.map some) ∨
      ∃ (outs : List α) (rest : List (Option α)), tasks = outs.map some ++ none :: rest := by
  induction tasks with
  | nil => exact .inl ⟨[], rfl⟩
  | cons task tasks ih =>
      cases task with
      | none => exact .inr ⟨[], tasks, rfl⟩
      | some out =>
          rcases ih with ⟨outs, rfl⟩ | ⟨outs, rest, rfl⟩
          · exact .inl ⟨out :: outs, rfl⟩
          · exact .inr ⟨out :: outs, rest, rfl⟩

theorem driven_of_some (n : Nat) (outs : List (List α)) :
    Driven n (outs.map some) outs.flatten := .inl ⟨outs, rfl, rfl⟩

theorem driven_map_some {outs : List (List α)} :
    Driven n (outs.map some) out ↔ out = outs.flatten := by
  constructor
  · rintro (⟨outs', heq, rfl⟩ | ⟨outs', ahead, rest, heq, _⟩)
    · rw [List.map_injective_iff.mpr (Option.some_injective _) heq]
    · have hnone : none ∈ outs.map some := heq ▸ List.mem_append_right _ List.mem_cons_self
      obtain ⟨_, _, h⟩ := List.mem_map.mp hnone
      cases h
  · rintro rfl
    exact driven_of_some n outs

end Tasks

end Fused
