import Mimirsbrunn.Elasticsearch.PointInTime
import Mimirsbrunn.Publication.Lookups

namespace Mimirsbrunn
open Regex Std Internal

variable {D D' : Type} [Document D] {E : Engine D} {docType dataset : Text} {i : Import D}
  {s₀ s : Store D} {a n : Text}

theorem Holds.perm {documents : List D} {docs : TreeMap Text D} (h : Holds documents docs)
    (hids : (documents.map Document.id).Nodup) : (docs.toList.map Prod.snd).Perm documents := by
  have hids' : docs.toList.map (fun e => Document.id e.2) = docs.keys := by
    rw [← TreeMap.map_fst_toList_eq_keys]
    refine List.map_congr_left fun e he => ?_
    exact (h.sound e.1 e.2 (TreeMap.mem_toList_iff_getElem?_eq_some.mp he)).2
  have hnodup : (docs.toList.map Prod.snd).Nodup := by
    refine List.Nodup.of_map Document.id ?_
    rw [List.map_map]
    exact hids' ▸ TreeMap.nodup_keys
  refine (List.perm_ext_iff_of_nodup hnodup hids.of_map).mpr fun d => ?_
  simp only [List.mem_map, Prod.exists, exists_eq_right, TreeMap.mem_toList_iff_getElem?_eq_some]
  constructor
  · rintro ⟨id, hd⟩
    exact (h.sound id d hd).1
  · intro hd
    exact ⟨_, (h.exact hids).mpr ⟨hd, rfl⟩⟩

omit [Document D] in
theorem Single.listed_perm (h : Single docType dataset s a n) {docs : TreeMap Text D}
    (hdocs : s.contentOf n = some (docs, docs)) :
    (s.listed a).Perm (docs.toList.map (fun d => (n, d.2))) := by
  obtain ⟨e, he, hcontent⟩ := Option.map_eq_some_iff.mp hdocs
  obtain ⟨_, hsearchable⟩ := Prod.mk.inj hcontent
  have hnodup : s.indices.toList.Nodup := by
    refine List.Nodup.of_map Prod.fst ?_
    rw [TreeMap.map_fst_toList_eq_keys]
    exact TreeMap.nodup_keys
  have hone : (s.indices.toList.filter (fun e => s.Stands a e.1)).Perm [(n, e)] := by
    refine (List.perm_ext_iff_of_nodup (hnodup.filter _) (List.nodup_singleton _)).mpr ?_
    rintro ⟨m, e'⟩
    rw [List.mem_filter, decide_eq_true_eq, TreeMap.mem_toList_iff_getElem?_eq_some,
      List.mem_singleton, Prod.mk.injEq]
    constructor
    · rintro ⟨he', hm⟩
      obtain rfl := h.only m hm
      exact ⟨rfl, Option.some.inj (he'.symm.trans he)⟩
    · rintro ⟨rfl, rfl⟩
      exact ⟨he, h.aliased.mem, .inr h.aliased⟩
  have hlisted := hone.flatMap_right (fun e => e.2.searchable.toList.map (fun d => (e.1, d.2)))
  rwa [List.flatMap_singleton, hsearchable] at hlisted

end Mimirsbrunn
