import Mimirsbrunn.Imports.AddrReader

namespace Mimirsbrunn.Imports
open Regex Fused Places

variable {Shape Geometry : Type} {formatter : Labels.Formatter} {display : Float → Text}
  {point : Float → Float → Geometry} {admins_from_insee : AdminFromInsee Shape Geometry}
  {admins_geofinder : Coordinate → List (Places.Admin Shape Geometry)} {b : Bano}

def CutsClean (id : Text) : Prop :=
  Utf8.size id < 10 ∨ (Utf8.Boundary 5 id ∧ Utf8.Boundary 10 id)

theorem fantoir_eq_none : b.fantoir = none ↔ 10 ≤ Utf8.size b.id ∧ ¬Utf8.Boundary 10 b.id :=
  Utf8.guarded_slice_eq_none

theorem insee_eq_none : b.insee = none ↔ 5 ≤ Utf8.size b.id ∧ ¬Utf8.Boundary 5 b.id :=
  Utf8.guarded_slice_eq_none

theorem fantoir_ok_iff : (∃ fantoir, b.fantoir = some (.ok fantoir)) ↔
    10 ≤ Utf8.size b.id ∧ Utf8.Boundary 10 b.id := by
  rw [Bano.fantoir]
  split
  · next hlen =>
    rw [and_iff_right hlen, ← not_iff_not, ← Utf8.sliceTo_eq_none]
    cases Utf8.sliceTo 10 b.id <;> simp
  · next hlen => exact iff_of_false (by simp) fun h => hlen h.1

theorem intoAddr_eq_none :
    b.intoAddr formatter display point admins_from_insee admins_geofinder = none ↔
      b.fantoir = none ∨ (∃ fantoir, b.fantoir = some (.ok fantoir)) ∧ b.insee = none := by
  rw [Bano.intoAddr]
  rcases b.fantoir with _ | _ | fantoir
  · simp
  · simp
  · rcases b.insee with _ | _ | insee <;> simp

theorem intoAddr_returns_iff :
    b.intoAddr formatter display point admins_from_insee admins_geofinder ≠ none ↔
      CutsClean b.id := by
  rw [ne_eq, intoAddr_eq_none, fantoir_eq_none, fantoir_ok_iff, insee_eq_none, CutsClean]
  rcases Nat.lt_or_ge (Utf8.size b.id) 10 with hshort | hlong
  · refine iff_of_true ?_ (.inl hshort)
    rintro (⟨hlong, _⟩ | ⟨⟨hlong, _⟩, _⟩) <;> omega
  · have hfive : 5 ≤ Utf8.size b.id := by omega
    rw [or_iff_right (Nat.not_lt_of_le hlong)]
    tauto

structure Unharmed (into_addr : IntoAddr Bano Shape Geometry) (num_cpus : Nat)
    (records : List Bano) : Prop where
  answered : ∀ b ∈ records, into_addr b ≠ none
  yielded : ∀ out, Driven num_cpus (chunkTasks into_addr records) out →
    out = addressesOf into_addr records

theorem yielded_of_answered {into_addr : IntoAddr Bano Shape Geometry} {num_cpus : Nat}
    {records : List Bano} (h : ∀ b ∈ records, into_addr b ≠ none)
    {out : List (Addr Shape Geometry)}
    (hout : Driven num_cpus (chunkTasks into_addr records) out) :
    out = addressesOf into_addr records := by
  have hall : (Chunks.chunks 1000 records).flatten = records := Chunks.chunks_flatten 1000 records
  obtain ⟨outs, houts⟩ : ∃ outs : List (List (Addr Shape Geometry)),
      (Chunks.chunks 1000 records).map (spawnTask into_addr) = outs.map some :=
    spawned_of_returns (by rwa [hall])
  rw [chunkTasks, houts, driven_map_some] at hout
  rw [hout, flatten_spawned houts, hall]

theorem unharmed_iff (formatter : Labels.Formatter) (display : Float → Text)
    (point : Float → Float → Geometry) (admins_from_insee : AdminFromInsee Shape Geometry)
    (admins_geofinder : Coordinate → List (Places.Admin Shape Geometry)) (num_cpus : Nat)
    (records : List Bano) :
    Unharmed (fun b => b.intoAddr formatter display point admins_from_insee admins_geofinder)
        num_cpus records ↔
      ∀ b ∈ records, CutsClean b.id := by
  constructor
  · exact fun h b hb => intoAddr_returns_iff.mp (h.answered b hb)
  · intro h
    have hanswered : ∀ b ∈ records,
        b.intoAddr formatter display point admins_from_insee admins_geofinder ≠ none :=
      fun b hb => intoAddr_returns_iff.mpr (h b hb)
    exact ⟨hanswered, fun out hout => yielded_of_answered hanswered hout⟩

def accented : Bano := { rueHectorMalot with id := "7511é4535J-20".toList }

theorem accented_aborts : ¬Unharmed banoIntoAddr 8 [rueHectorMalot, accented] := by
  intro h
  exact h.answered accented (List.mem_cons_of_mem _ List.mem_cons_self) rfl

end Mimirsbrunn.Imports
