import Mathlib.Data.List.Induction
import Mathlib.Data.List.Nodup

namespace Greedy

variable {α : Type} {eligible : α → Prop} {claims : α → α → Prop} {xs : List α} {a b c x y : α}

theorem last_fresh (hn : (xs ++ [x]).Nodup) : x ∉ xs :=
  fun hx => (List.nodup_append.mp hn).2.2 x hx x List.mem_cons_self rfl

def Before (xs : List α) (a b : α) : Prop := [a, b].Sublist xs

theorem Before.mem_left (h : Before xs a b) : a ∈ xs := h.subset List.mem_cons_self

theorem Before.mem_right (h : Before xs a b) : b ∈ xs :=
  h.subset (List.mem_cons_of_mem a List.mem_cons_self)

theorem before_concat : Before (xs ++ [x]) a b ↔ Before xs a b ∨ (a ∈ xs ∧ b = x) := by
  rw [Before, List.sublist_append_iff]
  constructor
  · rintro ⟨front, back, heq, hfront, hback⟩
    rcases List.sublist_singleton.mp hback with rfl | rfl
    · rw [List.append_nil] at heq
      rw [← heq] at hfront
      exact .inl hfront
    · have hsplit : [a] ++ [b] = front ++ [x] := heq
      obtain ⟨rfl, hb⟩ := List.append_inj' hsplit rfl
      exact .inr ⟨List.singleton_sublist.mp hfront, by simpa using hb⟩
  · rintro (h | ⟨ha, rfl⟩)
    · exact ⟨[a, b], [], (List.append_nil _).symm, h, List.nil_sublist _⟩
    · exact ⟨[a], [b], rfl, List.singleton_sublist.mpr ha, .refl _⟩

theorem Before.concat (h : Before xs a b) : Before (xs ++ [x]) a b := before_concat.mpr (.inl h)

theorem before_last (h : a ∈ xs) : Before (xs ++ [x]) a x := before_concat.mpr (.inr ⟨h, rfl⟩)

theorem Before.trans (hn : xs.Nodup) (hab : Before xs a b) (hbc : Before xs b c) :
    Before xs a c := by
  induction xs using List.reverseRecOn with
  | nil => cases hab
  | append_singleton xs x ih =>
      have hfresh : x ∉ xs := last_fresh hn
      rcases before_concat.mp hbc with hbc | ⟨hb, rfl⟩
      · rcases before_concat.mp hab with hab | ⟨_, hbx⟩
        · exact (ih (List.nodup_append.mp hn).1 hab hbc).concat
        · exact absurd (hbx ▸ hbc.mem_left) hfresh
      · rcases before_concat.mp hab with hab | ⟨ha, _⟩
        · exact before_last hab.mem_left
        · exact before_last ha

theorem before_or (ha : a ∈ xs) (hb : b ∈ xs) : a = b ∨ Before xs a b ∨ Before xs b a := by
  induction xs using List.reverseRecOn with
  | nil => cases ha
  | append_singleton xs x ih =>
      rcases List.mem_append.mp ha with hax | hax
      · rcases List.mem_append.mp hb with hbx | hbx
        · exact (ih hax hbx).imp_right (.imp .concat .concat)
        · obtain rfl := List.mem_singleton.mp hbx
          exact .inr (.inl (before_last hax))
      · obtain rfl := List.mem_singleton.mp hax
        rcases List.mem_append.mp hb with hbx | hbx
        · exact .inr (.inr (before_last hbx))
        · exact .inl (List.mem_singleton.mp hbx).symm

open Classical in
noncomputable def select (eligible : α → Prop) (claims : α → α → Prop) (xs : List α) : List α :=
  xs.foldl (fun taken x =>
    if eligible x ∧ ∀ t ∈ taken, ¬claims t x then taken ++ [x] else taken) []

theorem select_take (hx : eligible x) (hfree : ∀ t ∈ select eligible claims xs, ¬claims t x) :
    select eligible claims (xs ++ [x]) = select eligible claims xs ++ [x] := by
  rw [select, List.foldl_append]
  exact if_pos ⟨hx, hfree⟩

theorem select_skip (h : eligible x → ∃ t ∈ select eligible claims xs, claims t x) :
    select eligible claims (xs ++ [x]) = select eligible claims xs := by
  rw [select, List.foldl_append]
  refine if_neg fun ⟨hx, hfree⟩ => ?_
  obtain ⟨t, ht, hclaim⟩ := h hx
  exact hfree t ht hclaim

theorem select_concat (xs : List α) (x : α) :
    select eligible claims (xs ++ [x]) = select eligible claims xs ∨
      (select eligible claims (xs ++ [x]) = select eligible claims xs ++ [x] ∧ eligible x ∧
      ∀ t ∈ select eligible claims xs, ¬claims t x) := by
  by_cases h : eligible x → ∃ t ∈ select eligible claims xs, claims t x
  · exact .inl (select_skip h)
  · obtain ⟨hx, hfree⟩ := Classical.not_imp.mp h
    exact .inr ⟨select_take hx (by simpa using hfree), hx, by simpa using hfree⟩

theorem select_sublist : (select eligible claims xs).Sublist xs := by
  induction xs using List.reverseRecOn with
  | nil => exact .slnil
  | append_singleton xs x ih =>
      rcases select_concat xs x with h | ⟨h, _, _⟩
      · exact h ▸ ih.trans (List.sublist_append_left xs [x])
      · exact h ▸ ih.append (.refl _)

theorem eligible_of_mem_select (hx : x ∈ select eligible claims xs) : eligible x := by
  induction xs using List.reverseRecOn with
  | nil => cases hx
  | append_singleton xs y ih =>
      rcases select_concat xs y with h | ⟨h, hy, _⟩
      · exact ih (h ▸ hx)
      · rcases List.mem_append.mp (h ▸ hx) with hx | hx
        · exact ih hx
        · exact List.mem_singleton.mp hx ▸ hy

theorem select_mono (hx : x ∈ select eligible claims xs) :
    x ∈ select eligible claims (xs ++ [y]) := by
  rcases select_concat xs y with h | ⟨h, _⟩
  · exact h ▸ hx
  · exact h ▸ List.mem_append_left [y] hx

theorem select_grows (xs ys : List α) :
    ∃ more, select eligible claims (xs ++ ys) = select eligible claims xs ++ more := by
  induction ys using List.reverseRecOn with
  | nil => exact ⟨[], by rw [List.append_nil, List.append_nil]⟩
  | append_singleton ys y ih =>
      obtain ⟨more, hmore⟩ := ih
      rw [← List.append_assoc]
      rcases select_concat (xs ++ ys) y with h | ⟨h, _⟩
      · exact ⟨more, h.trans hmore⟩
      · exact ⟨more ++ [y], by rw [h, hmore, List.append_assoc]⟩

theorem selected_or_claimed (hx : x ∈ xs) (he : eligible x) : x ∈ select eligible claims xs ∨
    ∃ t ∈ select eligible claims xs, Before xs t x ∧ claims t x := by
  induction xs using List.reverseRecOn with
  | nil => cases hx
  | append_singleton xs y ih =>
      rcases List.mem_append.mp hx with hx | hx
      · rcases ih hx with h | ⟨t, ht, hb, hclaim⟩
        · exact .inl (select_mono h)
        · exact .inr ⟨t, select_mono ht, hb.concat, hclaim⟩
      · obtain rfl := List.mem_singleton.mp hx
        by_cases h : ∃ t ∈ select eligible claims xs, claims t x
        · obtain ⟨t, ht, hclaim⟩ := h
          exact .inr ⟨t, select_mono ht, before_last (select_sublist.subset ht), hclaim⟩
        · refine .inl ?_
          rw [select_take he (by simpa using h)]
          exact List.mem_append_right _ List.mem_cons_self

theorem mem_select_of_concat (hn : (xs ++ [y]).Nodup)
    (hx : x ∈ select eligible claims (xs ++ [y])) (hxs : x ∈ xs) :
    x ∈ select eligible claims xs := by
  rcases select_concat xs y with h | ⟨h, _⟩
  · exact h ▸ hx
  · rcases List.mem_append.mp (h ▸ hx) with hx | hx
    · exact hx
    · obtain rfl := List.mem_singleton.mp hx
      exact absurd hxs (last_fresh hn)

theorem not_claimed (hn : xs.Nodup) (ha : a ∈ select eligible claims xs)
    (hb : b ∈ select eligible claims xs) (hab : Before xs a b) : ¬claims a b := by
  induction xs using List.reverseRecOn with
  | nil => cases ha
  | append_singleton xs y ih =>
      rcases before_concat.mp hab with hab | ⟨hax, rfl⟩
      · have ha' := mem_select_of_concat hn ha hab.mem_left
        have hb' := mem_select_of_concat hn hb hab.mem_right
        exact ih (List.nodup_append.mp hn).1 ha' hb' hab
      · have ha' := mem_select_of_concat hn ha hax
        rcases select_concat xs b with h | ⟨_, _, hfree⟩
        · exact absurd (select_sublist.subset (h ▸ hb)) (last_fresh hn)
        · exact hfree a ha'

section Kept

variable {brings : α → α → Prop}

def Kept (eligible : α → Prop) (claims brings : α → α → Prop) (xs : List α) (x : α) : Prop :=
  x ∈ select eligible claims xs ∨ ∃ t ∈ select eligible claims xs, Before xs t x ∧ brings t x

theorem Kept.mem (h : Kept eligible claims brings xs x) : x ∈ xs := by
  rcases h with h | ⟨t, _, hb, _⟩
  · exact select_sublist.subset h
  · exact hb.mem_right

theorem kept_concat (hn : (xs ++ [y]).Nodup) : Kept eligible claims brings (xs ++ [y]) x ↔
    Kept eligible claims brings xs x ∨ (x = y ∧
      (y ∈ select eligible claims (xs ++ [y]) ∨ ∃ t ∈ select eligible claims xs, brings t y)) := by
  constructor
  · rintro (hx | ⟨t, ht, hb, hbrings⟩)
    · rcases List.mem_append.mp (select_sublist.subset hx) with hxs | hxy
      · exact .inl (.inl (mem_select_of_concat hn hx hxs))
      · obtain rfl := List.mem_singleton.mp hxy
        exact .inr ⟨rfl, .inl hx⟩
    · rcases before_concat.mp hb with hb | ⟨hts, rfl⟩
      · exact .inl (.inr ⟨t, mem_select_of_concat hn ht hb.mem_left, hb, hbrings⟩)
      · exact .inr ⟨rfl, .inr ⟨t, mem_select_of_concat hn ht hts, hbrings⟩⟩
  · rintro ((hx | ⟨t, ht, hb, hbrings⟩) | ⟨rfl, hy | ⟨t, ht, hbrings⟩⟩)
    · exact .inl (select_mono hx)
    · exact .inr ⟨t, select_mono ht, hb.concat, hbrings⟩
    · exact .inl hy
    · exact .inr ⟨t, select_mono ht, before_last (select_sublist.subset ht), hbrings⟩

end Kept

end Greedy
