import Mathlib.Order.Defs.Unbundled

-- Pages cut by the last key seen, from a list in strictly decreasing order of its keys.
namespace Keyset

variable {α κ : Type} [LT κ] [DecidableLT κ] [@Std.Asymm κ (· < ·)] (key : α → κ)

theorem filter_lt_last {xs : List α} (h : xs.Pairwise (fun a b => key b < key a)) {n : Nat}
    {last : α} (hl : (xs.take n).getLast? = some last) :
    xs.filter (fun x => key x < key last) = xs.drop n := by
  obtain ⟨init, hinit⟩ := List.getLast?_eq_some_iff.mp hl
  have hsplit : (init ++ [last]) ++ xs.drop n = xs := by rw [← hinit, List.take_append_drop]
  rw [← hsplit, List.pairwise_append, List.pairwise_append] at h
  obtain ⟨⟨_, _, hbefore⟩, _, hafter⟩ := h
  have hpage : (init ++ [last]).filter (fun x => key x < key last) = [] := by
    refine List.filter_eq_nil_iff.mpr (fun a ha => ?_)
    rw [decide_eq_true_eq]
    rcases List.mem_append.mp ha with ha | ha
    · exact Std.Asymm.asymm _ _ (hbefore a ha last List.mem_cons_self)
    · obtain rfl := List.mem_singleton.mp ha
      exact Std.Irrefl.irrefl _
  have hrest : (xs.drop n).filter (fun x => key x < key last) = xs.drop n := by
    refine List.filter_eq_self.mpr (fun a ha => ?_)
    exact decide_eq_true (hafter last (by simp) a ha)
  calc xs.filter (fun x => key x < key last)
      = ((init ++ [last]) ++ xs.drop n).filter (fun x => key x < key last) := by rw [hsplit]
    _ = xs.drop n := by rw [List.filter_append, hpage, hrest, List.nil_append]

end Keyset
