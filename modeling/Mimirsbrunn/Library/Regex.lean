import Mathlib.Data.List.Basic

namespace Regex

abbrev Text := List Char

inductive Rx where
  | one (p : Char → Bool)
  | many (p : Char → Bool)
  | many1 (p : Char → Bool)
  | seq (a b : Rx)
  | group (r : Rx)

structure Match where
  text : Text
  groups : List Text
  rest : Text
  deriving DecidableEq, Repr

def greedy (p : Char → Bool) : Text → List (Text × Text)
  | [] => [([], [])]
  | c :: s =>
      if p c then (greedy p s).map (fun m => (c :: m.1, m.2)) ++ [([], c :: s)]
      else [([], c :: s)]

-- All the ways to match a prefix of the text, the preferred one first.
def Rx.matches : Rx → Text → List Match
  | .one _, [] => []
  | .one p, c :: s => if p c then [⟨[c], [], s⟩] else []
  | .many p, s => (greedy p s).map (fun m => ⟨m.1, [], m.2⟩)
  | .many1 p, s => ((greedy p s).filter (fun m => !m.1.isEmpty)).map (fun m => ⟨m.1, [], m.2⟩)
  | .seq a b, s => (a.matches s).flatMap (fun m => (b.matches m.rest).map (fun n =>
      ⟨m.text ++ n.text, m.groups ++ n.groups, n.rest⟩))
  | .group r, s => (r.matches s).map (fun m => ⟨m.text, m.text :: m.groups, m.rest⟩)

def Rx.captures (r : Rx) : Text → Option Match
  | [] => (r.matches []).head?
  | c :: s => ((r.matches (c :: s)).head?).or (r.captures s)

def Rx.literal : Text → Rx
  | [] => .many (fun _ => false)
  | c :: s => .seq (.one (· == c)) (literal s)

theorem greedy_mem {p : Char → Bool} {s : Text} {m : Text × Text} (h : m ∈ greedy p s) :
    s = m.1 ++ m.2 ∧ ∀ c ∈ m.1, p c = true := by
  induction s generalizing m with
  | nil => simp only [greedy, List.mem_singleton] at h; subst h; simp
  | cons c s ih =>
      simp only [greedy] at h
      split at h
      · next hp =>
        simp only [List.mem_append, List.mem_map, List.mem_singleton] at h
        rcases h with ⟨n, hn, rfl⟩ | rfl
        · obtain ⟨hs, hall⟩ := ih hn
          refine ⟨by simp [← hs], ?_⟩
          intro d hd
          rcases List.mem_cons.mp hd with rfl | hd
          · exact hp
          · exact hall d hd
        · simp
      · simp only [List.mem_singleton] at h; subst h; simp

theorem greedy_head {p : Char → Bool} {a s : Text} (ha : ∀ c ∈ a, p c = true)
    (hs : ∀ c ∈ s.head?, p c = false) : (greedy p (a ++ s)).head? = some (a, s) := by
  induction a with
  | nil =>
      cases s with
      | nil => rfl
      | cons c s =>
        have hc : p c = false := hs c (by simp)
        simp [greedy, hc]
  | cons c a ih =>
      have hc : p c = true := ha c (by simp)
      have h := ih (fun d hd => ha d (by simp [hd]))
      simp [greedy, hc, List.head?_append, h]

theorem matches_split {r : Rx} {s : Text} {m : Match} (h : m ∈ r.matches s) :
    s = m.text ++ m.rest := by
  induction r generalizing s m with
  | one p =>
      cases s with
      | nil => simp [Rx.matches] at h
      | cons c s =>
          simp only [Rx.matches] at h
          split at h
          · obtain rfl := List.mem_singleton.mp h; rfl
          · simp at h
  | many p =>
      obtain ⟨n, hn, rfl⟩ := List.mem_map.mp h
      exact (greedy_mem hn).1
  | many1 p =>
      obtain ⟨n, hn, rfl⟩ := List.mem_map.mp h
      exact (greedy_mem (List.mem_filter.mp hn).1).1
  | seq a b iha ihb =>
      simp only [Rx.matches, List.mem_flatMap, List.mem_map] at h
      obtain ⟨m₁, h₁, m₂, h₂, rfl⟩ := h
      rw [iha h₁, ihb h₂, List.append_assoc]
  | group r ih =>
      obtain ⟨n, hn, rfl⟩ := List.mem_map.mp h
      have := ih hn
      exact this

theorem infix_of_mem_groups {r : Rx} {s : Text} {m : Match} (h : m ∈ r.matches s) :
    ∀ g ∈ m.groups, g <:+: m.text := by
  induction r generalizing s m with
  | one p =>
      cases s with
      | nil => simp [Rx.matches] at h
      | cons c s =>
          simp only [Rx.matches] at h
          split at h
          · obtain rfl := List.mem_singleton.mp h; simp
          · simp at h
  | many p =>
      obtain ⟨n, hn, rfl⟩ := List.mem_map.mp h
      simp
  | many1 p =>
      obtain ⟨n, hn, rfl⟩ := List.mem_map.mp h
      simp
  | seq a b iha ihb =>
      simp only [Rx.matches, List.mem_flatMap, List.mem_map] at h
      obtain ⟨m₁, h₁, m₂, h₂, rfl⟩ := h
      intro g hg
      rcases List.mem_append.mp hg with hg | hg
      · exact (iha h₁ g hg).trans (List.prefix_append _ _).isInfix
      · exact (ihb h₂ g hg).trans (List.suffix_append _ _).isInfix
  | group r ih =>
      obtain ⟨n, hn, rfl⟩ := List.mem_map.mp h
      intro g hg
      rcases List.mem_cons.mp hg with rfl | hg
      · exact List.infix_rfl
      · exact ih hn g hg

theorem captures_mem {r : Rx} {s : Text} {m : Match} (h : r.captures s = some m) :
    ∃ pre rest, s = pre ++ rest ∧ m ∈ r.matches rest := by
  induction s with
  | nil => exact ⟨[], [], rfl, List.mem_of_head? h⟩
  | cons c s ih =>
      simp only [Rx.captures, Option.or_eq_some_iff] at h
      rcases h with h | ⟨_, h⟩
      · exact ⟨[], c :: s, rfl, List.mem_of_head? h⟩
      · obtain ⟨pre, rest, hs, hm⟩ := ih h
        exact ⟨c :: pre, rest, by simp [hs], hm⟩

theorem captures_head {r : Rx} {s : Text} {m : Match} (h : (r.matches s).head? = some m) :
    r.captures s = some m := by
  cases s with
  | nil => exact h
  | cons c s => simp [Rx.captures, h]

theorem captures_append {r : Rx} {s : Text} (pre : Text) (h : (r.captures s).isSome) :
    (r.captures (pre ++ s)).isSome := by
  induction pre with
  | nil => exact h
  | cons c pre ih =>
      simp only [List.cons_append, Rx.captures, Option.isSome_or, ih, Bool.or_true]

theorem one_groups {p : Char → Bool} {s : Text} {m : Match} (h : m ∈ (Rx.one p).matches s) :
    m.groups = [] := by
  cases s with
  | nil => simp [Rx.matches] at h
  | cons c s =>
      simp only [Rx.matches] at h
      split at h
      · simp only [List.mem_singleton] at h; subst h; rfl
      · simp at h

theorem many_groups {p : Char → Bool} {s : Text} {m : Match} (h : m ∈ (Rx.many p).matches s) :
    m.groups = [] := by
  obtain ⟨n, _, rfl⟩ := List.mem_map.mp h
  rfl

theorem seq_groups {a b : Rx} {s : Text} {m : Match} (h : m ∈ (Rx.seq a b).matches s) :
    ∃ m₁ ∈ a.matches s, ∃ m₂ ∈ b.matches m₁.rest, m.groups = m₁.groups ++ m₂.groups := by
  simp only [Rx.matches, List.mem_flatMap, List.mem_map] at h
  obtain ⟨m₁, h₁, m₂, h₂, rfl⟩ := h
  exact ⟨m₁, h₁, m₂, h₂, rfl⟩

theorem many1_mem {p : Char → Bool} {s : Text} {m : Match} (h : m ∈ (Rx.many1 p).matches s) :
    m.text ≠ [] ∧ m.groups = [] ∧ ∀ c ∈ m.text, p c = true := by
  obtain ⟨n, hn, rfl⟩ := List.mem_map.mp h
  obtain ⟨hn, hne⟩ := List.mem_filter.mp hn
  refine ⟨?_, rfl, (greedy_mem hn).2⟩
  intro he
  simp only at he
  simp [he] at hne

theorem group_many1_groups {p : Char → Bool} {s : Text} {m : Match}
    (h : m ∈ (Rx.group (.many1 p)).matches s) :
    ∃ t, m.groups = [t] ∧ t ≠ [] ∧ ∀ c ∈ t, p c = true := by
  obtain ⟨n, hn, rfl⟩ := List.mem_map.mp h
  obtain ⟨hne, hg, hall⟩ := many1_mem hn
  exact ⟨n.text, by simp [hg], hne, hall⟩

theorem many1_head {p : Char → Bool} {a s : Text} (hne : a ≠ []) (ha : ∀ c ∈ a, p c = true)
    (hs : ∀ c ∈ s.head?, p c = false) :
    ((Rx.many1 p).matches (a ++ s)).head? = some ⟨a, [], s⟩ := by
  obtain ⟨rest, hrest⟩ := List.head?_eq_some_iff.mp (greedy_head ha hs)
  simp [Rx.matches, hrest, hne]

theorem greedy_ne_nil (p : Char → Bool) (s : Text) : greedy p s ≠ [] := by
  cases s with
  | nil => simp [greedy]
  | cons c s => simp only [greedy]; split <;> simp

theorem many_head (p : Char → Bool) (s : Text) :
    ∃ m, ((Rx.many p).matches s).head? = some m ∧ m.groups = [] := by
  obtain ⟨n, ns, hn⟩ := List.exists_cons_of_ne_nil (greedy_ne_nil p s)
  exact ⟨⟨n.1, [], n.2⟩, by simp [Rx.matches, hn], rfl⟩

theorem one_head {p : Char → Bool} {c : Char} (s : Text) (hc : p c = true) :
    ((Rx.one p).matches (c :: s)).head? = some ⟨[c], [], s⟩ := by
  simp [Rx.matches, hc]

theorem seq_head {a b : Rx} {s : Text} {m n : Match} (hm : (a.matches s).head? = some m)
    (hn : (b.matches m.rest).head? = some n) :
    ((Rx.seq a b).matches s).head? = some ⟨m.text ++ n.text, m.groups ++ n.groups, n.rest⟩ := by
  obtain ⟨ms, hms⟩ := List.head?_eq_some_iff.mp hm
  obtain ⟨ns, hns⟩ := List.head?_eq_some_iff.mp hn
  simp [Rx.matches, hms, hns]

theorem group_head {r : Rx} {s : Text} {m : Match} (hm : (r.matches s).head? = some m) :
    ((Rx.group r).matches s).head? = some ⟨m.text, m.text :: m.groups, m.rest⟩ := by
  simp [Rx.matches, hm]

end Regex
