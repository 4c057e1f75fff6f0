import Std.Data.TreeMap.Lemmas
import Mathlib.Data.List.Nodup
import Mathlib.Data.List.Perm.Basic

-- A map kept in two places: the entries of a front and the entries of a back.
namespace Tiers
open Std

variable {κ β : Type} {back : List (κ × β)} {k : κ} {v : β}

section Back

variable [DecidableEq κ]

def lookup (back : List (κ × β)) (k : κ) : Option β :=
  (back.find? (fun e => e.1 = k)).map Prod.snd

theorem mem_of_lookup (h : lookup back k = some v) : (k, v) ∈ back := by
  obtain ⟨⟨k', v'⟩, hfind, rfl⟩ := Option.map_eq_some_iff.mp h
  have hk : k' = k := by simpa using List.find?_some hfind
  exact hk ▸ List.mem_of_find?_eq_some hfind

theorem lookup_none : lookup back k = none ↔ k ∉ back.map Prod.fst := by
  rw [lookup, Option.map_eq_none_iff, List.find?_eq_none, List.mem_map]
  refine ⟨fun h hm => ?_, fun h e he heq => h ⟨e, he, of_decide_eq_true heq⟩⟩
  obtain ⟨e, he, heq⟩ := hm
  exact h e he (decide_eq_true heq)

end Back

variable [Ord κ] {front whole : TreeMap κ β}

def Splits (front : TreeMap κ β) (back : List (κ × β)) (whole : TreeMap κ β) : Prop :=
  (front.toList ++ back).Perm whole.toList

theorem Splits.drain (h : Splits front back whole) {drained : List (κ × β)}
    (hd : drained.Perm front.toList) : Splits ∅ (back ++ drained) whole := by
  have hempty : (∅ : TreeMap κ β).toList = [] := rfl
  rw [Splits, hempty, List.nil_append]
  exact (List.perm_append_comm.trans (hd.append_right back)).trans h

variable [TransOrd κ] [LawfulEqOrd κ]

theorem keys_nodup (m : TreeMap κ β) : (m.toList.map Prod.fst).Nodup := by
  rw [List.nodup_iff_pairwise_ne, List.pairwise_map]
  refine TreeMap.distinct_keys_toList.imp (fun hne heq => hne ?_)
  rw [heq]
  exact Std.ReflOrd.compare_self

namespace Splits

theorem keys (h : Splits front back whole) :
    (front.toList.map Prod.fst ++ back.map Prod.fst).Nodup := by
  rw [← List.map_append, (List.Perm.map Prod.fst h).nodup_iff]
  exact keys_nodup whole

theorem get [DecidableEq κ] (h : Splits front back whole) (k : κ) :
    whole[k]? = front[k]?.or (lookup back k) := by
  have hmem (v : β) : whole[k]? = some v ↔ (k, v) ∈ front.toList ∨ (k, v) ∈ back := by
    rw [← TreeMap.mem_toList_iff_getElem?_eq_some, ← List.mem_append]
    exact (List.Perm.mem_iff h).symm
  cases hf : front[k]? with
  | some v => exact (hmem v).mpr (.inl (TreeMap.mem_toList_iff_getElem?_eq_some.mpr hf))
  | none =>
      rw [Option.none_or]
      cases hb : lookup back k with
      | some v => exact (hmem v).mpr (.inr (mem_of_lookup hb))
      | none =>
          refine Option.eq_none_iff_forall_ne_some.mpr (fun v hv => ?_)
          rcases (hmem v).mp hv with hm | hm
          · rw [TreeMap.mem_toList_iff_getElem?_eq_some, hf] at hm
            cases hm
          · exact lookup_none.mp hb (List.mem_map.mpr ⟨_, hm, rfl⟩)

theorem insert [DecidableEq κ] (h : Splits front back whole) (hk : k ∉ back.map Prod.fst) (v : β) :
    Splits (front.insert k v) back (whole.insert k v) := by
  have hback : back.filter (fun e => ¬ k == e.1) = back := by
    refine List.filter_eq_self.mpr (fun e he => ?_)
    have hne : k ≠ e.1 := fun heq => hk (List.mem_map.mpr ⟨e, he, heq.symm⟩)
    simpa using hne
  calc
    List.Perm ((front.insert k v).toList ++ back)
        ((k, v) :: (front.toList.filter (fun e => ¬ k == e.1) ++ back)) :=
      TreeMap.toList_insert_perm.append_right back
    List.Perm _ ((k, v) :: (front.toList ++ back).filter (fun e => ¬ k == e.1)) := by
      rw [List.filter_append, hback]
    List.Perm _ ((k, v) :: whole.toList.filter (fun e => ¬ k == e.1)) :=
      (List.Perm.filter _ h).cons _
    List.Perm _ (whole.insert k v).toList := TreeMap.toList_insert_perm.symm

end Splits

end Tiers
