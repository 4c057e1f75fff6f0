import Mathlib.Data.List.Nodup
import Mathlib.Data.List.Perm.Subperm
import Std.Data.ExtTreeMap.Lemmas

namespace Entries
open Std

variable {α β : Type} {cmp : α → α → Ordering}

theorem find?_of_nodup {κ : Type} [DecidableEq κ] {key : α → κ} {l : List α} {a : α}
    (hn : (l.map key).Nodup) (ha : a ∈ l) : l.find? (fun b => key b = key a) = some a := by
  cases hfind : l.find? (fun b => key b = key a) with
  | none => exact absurd (decide_eq_true rfl) (List.find?_eq_none.mp hfind a ha)
  | some b =>
      have hkey : key b = key a := by simpa using List.find?_some hfind
      rw [List.inj_on_of_nodup_map hn (List.mem_of_find?_eq_some hfind) ha hkey]

section Values

variable [TransCmp cmp]

theorem getElem?_foldl_insert {entries : List (α × β)} {map : ExtTreeMap α β cmp} {k : α} {v : β}
    (h : (entries.foldl (fun map e => map.insert e.1 e.2) map)[k]? = some v) :
    map[k]? = some v ∨ ∃ e ∈ entries, cmp e.1 k = .eq ∧ e.2 = v := by
  induction entries generalizing map with
  | nil => exact .inl h
  | cons e entries ih =>
    rcases ih h with hget | ⟨e', he', hv⟩
    · rw [ExtTreeMap.getElem?_insert] at hget
      split at hget
      · next hk => exact .inr ⟨e, List.mem_cons_self, hk, Option.some.inj hget⟩
      · exact .inl hget
    · exact .inr ⟨e', List.mem_cons_of_mem e he', hv⟩

theorem mem_of_getElem?_ofList {entries : List (α × β)} {k : α} {v : β}
    (h : (ExtTreeMap.ofList entries cmp)[k]? = some v) :
    ∃ e ∈ entries, cmp e.1 k = .eq ∧ e.2 = v := by
  rw [ExtTreeMap.ofList_eq_foldl] at h
  rcases getElem?_foldl_insert h with hempty | hmem
  · simp at hempty
  · exact hmem

end Values

variable [LawfulEqCmp cmp]

theorem pairwise_of_nodup_keys {entries : List (α × β)} (h : (entries.map Prod.fst).Nodup) :
    entries.Pairwise (fun a b => ¬cmp a.1 b.1 = .eq) := by
  rw [List.Nodup, List.pairwise_map] at h
  exact h.imp (fun hne heq => hne (LawfulEqCmp.eq_of_compare heq))

variable [TransCmp cmp]

theorem nodup_keys (map : ExtTreeMap α β cmp) : (map.toList.map Prod.fst).Nodup := by
  rw [List.Nodup, List.pairwise_map]
  refine map.distinct_keys_toList.imp fun hne heq => hne ?_
  rw [heq]
  exact ReflCmp.compare_self

theorem toList_ofList_perm {entries : List (α × β)} (h : (entries.map Prod.fst).Nodup) :
    (ExtTreeMap.ofList entries cmp).toList.Perm entries := by
  have distinct : entries.Pairwise (fun a b => ¬cmp a.1 b.1 = .eq) := pairwise_of_nodup_keys h
  have subset : entries ⊆ (ExtTreeMap.ofList entries cmp).toList := by
    rintro ⟨k, v⟩ hkv
    rw [ExtTreeMap.mem_toList_iff_getElem?_eq_some]
    exact ExtTreeMap.getElem?_ofList_of_mem ReflCmp.compare_self distinct hkv
  have length : (ExtTreeMap.ofList entries cmp).toList.length = entries.length := by
    rw [ExtTreeMap.length_toList, ExtTreeMap.size_ofList distinct]
  have hsub := List.subperm_of_subset (List.Nodup.of_map _ h) subset
  exact (hsub.perm_of_length_le (Nat.le_of_eq length)).symm

theorem ofList_toList (map : ExtTreeMap α β cmp) : ExtTreeMap.ofList map.toList cmp = map :=
  ExtTreeMap.ext_toList (toList_ofList_perm (nodup_keys map))

theorem getElem?_ofList_map {γ : Type} [DecidableEq α] {key : γ → α} {value : γ → β}
    {xs : List γ} (h : (xs.map key).Nodup) (k : α) :
    (ExtTreeMap.ofList (xs.map (fun x => (key x, value x))) cmp)[k]? =
      (xs.find? (fun x => key x = k)).map value := by
  have keys : ((xs.map (fun x => (key x, value x))).map Prod.fst).Nodup := by
    rwa [List.map_map]
  have distinct : (xs.map (fun x => (key x, value x))).Pairwise (fun a b => ¬cmp a.1 b.1 = .eq) :=
    pairwise_of_nodup_keys keys
  have found : ∀ v, (ExtTreeMap.ofList (xs.map (fun x => (key x, value x))) cmp)[k]? = some v →
      ∃ x ∈ xs, key x = k := by
    intro v hv
    rw [← ExtTreeMap.mem_toList_iff_getElem?_eq_some, (toList_ofList_perm keys).mem_iff] at hv
    obtain ⟨x, hx, heq⟩ := List.mem_map.mp hv
    exact ⟨x, hx, congrArg Prod.fst heq⟩
  cases hfind : xs.find? (fun x => key x = k) with
  | none =>
    rw [Option.map_none, Option.eq_none_iff_forall_not_mem]
    intro v hv
    obtain ⟨x, hx, hkey⟩ := found v hv
    exact absurd (decide_eq_true hkey) (List.find?_eq_none.mp hfind x hx)
  | some x =>
    have hx := List.mem_of_find?_eq_some hfind
    have hkey : key x = k := by simpa using List.find?_some hfind
    rw [Option.map_some]
    refine ExtTreeMap.getElem?_ofList_of_mem ?_ distinct (List.mem_map_of_mem hx)
    rw [hkey]
    exact ReflCmp.compare_self

theorem find?_key {γ : Type} [DecidableEq α] {key : γ → α} {xs : List γ}
    (h : (xs.map key).Nodup) {x : γ} (hx : x ∈ xs) :
    xs.find? (fun y => key y = key x) = some x := by
  induction xs with
  | nil => cases hx
  | cons y ys ih =>
    rw [List.map_cons, List.nodup_cons] at h
    rw [List.find?_cons]
    rcases List.mem_cons.mp hx with rfl | hx
    · simp
    · have hne : key y ≠ key x := fun heq => h.1 (heq ▸ List.mem_map_of_mem hx)
      rw [decide_eq_false hne]
      exact ih h.2 hx

section Gathered

variable [DecidableEq α] {γ : Type}

def gather (key : γ → α) (combine : γ → Option β → β) (map : ExtTreeMap α β cmp) (x : γ) :
    ExtTreeMap α β cmp :=
  map.insert (key x) (combine x map[key x]?)

theorem getElem?_foldl_gather {key : γ → α} {combine : γ → Option β → β} {xs : List γ} {k : α}
    (map : ExtTreeMap α β cmp) :
    (xs.foldl (gather key combine) map)[k]? =
      (xs.filter (fun x => key x = k)).foldl (fun found x => some (combine x found)) map[k]? := by
  induction xs generalizing map with
  | nil => rfl
  | cons x xs ih =>
    rw [List.foldl_cons, ih, gather, ExtTreeMap.getElem?_insert, List.filter_cons]
    by_cases h : key x = k
    · subst h
      rw [if_pos ReflCmp.compare_self, if_pos (decide_eq_true rfl), List.foldl_cons]
    · rw [if_neg fun heq => h (LawfulEqCmp.eq_of_compare heq), if_neg fun heq => h
        (of_decide_eq_true heq)]

end Gathered

end Entries
