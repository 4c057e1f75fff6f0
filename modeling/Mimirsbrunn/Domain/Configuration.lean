import Mathlib.Data.Nat.Digits.Defs
import Mimirsbrunn.Library.Regex

namespace Mimirsbrunn
open Regex

def indexRoot : Text := "munin".toList

inductive ContainerVisibility where
  | Public
  | Private
  deriving DecidableEq, Repr

structure ContainerConfig where
  name : Text
  dataset : Text
  visibility : ContainerVisibility
  number_of_shards : Nat
  number_of_replicas : Nat
  deriving DecidableEq, Repr

-- What `Utc::now()` gives: a time after 1970 of chrono's calendar, no leap second.
structure DateTime where
  year : Fin 262144
  month : Fin 13
  day : Fin 32
  hour : Fin 24
  minute : Fin 60
  second : Fin 60
  nanosecond : Fin 1000000000
  deriving DecidableEq, Repr

-- A time written out, its numbers within the bounds.
def DateTime.utc (year month day hour minute second nanosecond : Nat) : DateTime :=
  ⟨.ofNat _ year, .ofNat _ month, .ofNat _ day, .ofNat _ hour, .ofNat _ minute, .ofNat _ second,
    .ofNat _ nanosecond⟩

def zeroPadded (width n : Nat) : Text :=
  let digits := Nat.toDigits 10 n
  List.replicate (width - digits.length) '0' ++ digits

-- chrono's "%Y%m%d_%H%M%S_%f": a year past 9999 carries its sign.
def DateTime.format (now : DateTime) : Text :=
  (if now.year ≤ 9999 then zeroPadded 4 now.year else '+' :: zeroPadded 5 now.year) ++
  zeroPadded 2 now.month ++ zeroPadded 2 now.day ++ ['_'] ++
  zeroPadded 2 now.hour ++ zeroPadded 2 now.minute ++ zeroPadded 2 now.second ++ ['_'] ++
  zeroPadded 9 now.nanosecond

def rootDoctypeDatasetTs (docType dataset : Text) (now : DateTime) : Text :=
  indexRoot ++ '_' :: docType ++ '_' :: dataset ++ '_' :: now.format

def rootDoctypeDataset (docType dataset : Text) : Text :=
  indexRoot ++ '_' :: docType ++ '_' :: dataset

def rootDoctype (docType : Text) : Text := indexRoot ++ '_' :: docType

def root : Text := indexRoot

def aliases (docType dataset : Text) : List Text :=
  [root, rootDoctype docType, rootDoctypeDataset docType dataset]

inductive ConfigurationError where
  | invalidName (details : Text)
  deriving DecidableEq, Repr

def notUnderscore (c : Char) : Bool := c != '_'

def splitIndexNameRegex : Rx :=
  .seq (.many1 notUnderscore) (.seq (.one (· == '_')) (.seq (.group (.many1 notUnderscore))
    (.seq (.one (· == '_')) (.seq (.group (.many1 notUnderscore)) (.many (· == '_'))))))

def splitIndexName (name : Text) : Except ConfigurationError (Text × Text) :=
  match splitIndexNameRegex.captures name with
  | some ⟨_, docType :: dataset :: _, _⟩ => .ok (docType, dataset)
  | _ => .error (.invalidName ("Could not analyze index name: ".toList ++ name))

def Piece (s : Text) : Prop := s ≠ [] ∧ '_' ∉ s

instance (s : Text) : Decidable (Piece s) := inferInstanceAs (Decidable (_ ∧ _))

theorem notUnderscore_iff {s : Text} : (∀ c ∈ s, notUnderscore c = true) ↔ '_' ∉ s := by
  simp only [notUnderscore, bne_iff_ne, ne_eq]
  exact ⟨fun h hm => h _ hm rfl, fun h c hc he => h (he ▸ hc)⟩

theorem splitIndexNameRegex_groups {s : Text} {m : Match}
    (h : m ∈ splitIndexNameRegex.matches s) :
    ∃ a b, m.groups = [a, b] ∧ Piece a ∧ Piece b := by
  obtain ⟨m₁, h₁, m₂, h₂, hg⟩ := seq_groups h
  obtain ⟨m₃, h₃, m₄, h₄, hg₂⟩ := seq_groups h₂
  obtain ⟨m₅, h₅, m₆, h₆, hg₄⟩ := seq_groups h₄
  obtain ⟨m₇, h₇, m₈, h₈, hg₆⟩ := seq_groups h₆
  obtain ⟨m₉, h₉, m₁₀, h₁₀, hg₈⟩ := seq_groups h₈
  obtain ⟨a, ha, hane, hap⟩ := group_many1_groups h₅
  obtain ⟨b, hb, hbne, hbp⟩ := group_many1_groups h₉
  refine ⟨a, b, ?_, ⟨hane, notUnderscore_iff.mp hap⟩, ⟨hbne, notUnderscore_iff.mp hbp⟩⟩
  rw [hg, hg₂, hg₄, hg₆, hg₈, (many1_mem h₁).2.1, one_groups h₃, one_groups h₇, many_groups h₁₀,
    ha, hb]
  rfl

-- The regex is not anchored: whatever it captures is made of whole underscore-free runs.
theorem splitIndexName_pieces {name docType dataset : Text}
    (h : splitIndexName name = .ok (docType, dataset)) : Piece docType ∧ Piece dataset := by
  rw [splitIndexName] at h
  split at h
  · next a b _ _ heq =>
    obtain ⟨_, _, _, hm⟩ := captures_mem heq
    obtain ⟨a', b', hg, ha, hb⟩ := splitIndexNameRegex_groups hm
    simp only [List.cons.injEq] at hg
    simp only [Except.ok.injEq, Prod.mk.injEq] at h
    obtain ⟨rfl, rfl, _⟩ := hg
    obtain ⟨rfl, rfl⟩ := h
    exact ⟨ha, hb⟩
  · simp at h

theorem splitIndexName_isInfix_pieces {name docType dataset : Text}
    (h : splitIndexName name = .ok (docType, dataset)) :
    docType <:+: name ∧ dataset <:+: name := by
  rw [splitIndexName] at h
  split at h
  · next m a b _ _ heq =>
    obtain ⟨pre, rest, rfl, hm⟩ := captures_mem heq
    obtain ⟨rfl, rfl⟩ := Prod.mk.inj (Except.ok.inj h)
    have hin : ∀ g : Text, g <:+: m → g <:+: pre ++ rest := by
      intro g hg
      rw [matches_split hm]
      exact hg.trans ((List.prefix_append _ _).isInfix.trans (List.suffix_append _ _).isInfix)
    exact ⟨hin _ (infix_of_mem_groups hm _ (by simp)), hin _ (infix_of_mem_groups hm _ (by simp))⟩
  · cases h

theorem splitIndexName_three {a b c : Text} (rest : Text) (ha : Piece a) (hb : Piece b) (hc : Piece c)
    (hrest : ∀ d ∈ rest.head?, d = '_') :
    splitIndexName (a ++ '_' :: b ++ '_' :: c ++ rest) = .ok (b, c) := by
  have hu : ∀ s : Text, ∀ d ∈ ('_' :: s).head?, notUnderscore d = false := by
    intro s d hd; simp only [List.head?_cons, Option.mem_def, Option.some.injEq] at hd
    subst hd; rfl
  have hr : ∀ d ∈ rest.head?, notUnderscore d = false := by
    intro d hd; rw [hrest d hd]; rfl
  have h₁ := many1_head ha.1 (notUnderscore_iff.mpr ha.2) (hu (b ++ '_' :: (c ++ rest)))
  have h₂ := group_head (many1_head hb.1 (notUnderscore_iff.mpr hb.2) (hu (c ++ rest)))
  have h₃ := group_head (many1_head hc.1 (notUnderscore_iff.mpr hc.2) hr)
  obtain ⟨m, hm, hmg⟩ := many_head (· == '_') rest
  have hone : ∀ s : Text, ((Rx.one (· == '_')).matches ('_' :: s)).head? = some ⟨['_'], [], s⟩ :=
    fun s => one_head s rfl
  have h := captures_head (seq_head h₁ (seq_head (hone _) (seq_head h₂ (seq_head (hone _)
    (seq_head h₃ hm)))))
  have hs : a ++ '_' :: b ++ '_' :: c ++ rest = a ++ '_' :: (b ++ '_' :: (c ++ rest)) := by simp
  rw [splitIndexName]
  rw [hs, splitIndexNameRegex, h]
  simp [hmg]

theorem splitIndexName_ok_iff {name : Text} :
    (∃ docType dataset, splitIndexName name = .ok (docType, dataset)) ↔
      (splitIndexNameRegex.captures name).isSome := by
  constructor
  · rintro ⟨docType, dataset, h⟩
    rw [splitIndexName] at h
    split at h
    · next heq => rw [heq]; rfl
    · cases h
  · intro h
    obtain ⟨m, hm⟩ := Option.isSome_iff_exists.mp h
    obtain ⟨_, _, _, hmem⟩ := captures_mem hm
    obtain ⟨a, b, hg, _⟩ := splitIndexNameRegex_groups hmem
    refine ⟨a, b, ?_⟩
    obtain ⟨text, groups, rest⟩ := m
    simp only at hg
    subst hg
    rw [splitIndexName, hm]

theorem isDigit_of_mem_zeroPadded {width n : Nat} {c : Char} (h : c ∈ zeroPadded width n) :
    c.isDigit = true := by
  rcases List.mem_append.mp h with h | h
  · rw [List.eq_of_mem_replicate h]; rfl
  · exact Nat.isDigit_of_mem_toDigits (by decide) (by decide) h

theorem piece_zeroPadded (width n : Nat) : Piece (zeroPadded width n) := by
  refine ⟨by simp [zeroPadded, Nat.toDigits_ne_nil], fun h => ?_⟩
  exact absurd (isDigit_of_mem_zeroPadded h) (by decide)

theorem Piece.append {a b : Text} (ha : Piece a) (hb : Piece b) : Piece (a ++ b) := by
  refine ⟨by simp [ha.1], fun h => ?_⟩
  exact (List.mem_append.mp h).elim ha.2 hb.2

theorem format_pieces (now : DateTime) : ∃ date time fraction, Piece date ∧ Piece time ∧
    Piece fraction ∧ now.format = date ++ '_' :: time ++ '_' :: fraction := by
  have hyear : Piece (if now.year ≤ 9999 then zeroPadded 4 now.year
      else '+' :: zeroPadded 5 now.year) := by
    split
    · exact piece_zeroPadded 4 now.year
    · exact Piece.append (a := ['+']) (by decide) (piece_zeroPadded 5 now.year)
  refine ⟨_, _, _, (hyear.append (piece_zeroPadded 2 now.month)).append
    (piece_zeroPadded 2 now.day), ((piece_zeroPadded 2 now.hour).append
    (piece_zeroPadded 2 now.minute)).append (piece_zeroPadded 2 now.second),
    piece_zeroPadded 9 now.nanosecond, ?_⟩
  simp [DateTime.format]

theorem star_not_mem_format (now : DateTime) : '*' ∉ now.format := by
  intro h
  have hdigit : ∀ width n, '*' ∉ zeroPadded width n := fun width n h =>
    absurd (isDigit_of_mem_zeroPadded h) (by decide)
  simp only [DateTime.format, List.mem_append, hdigit, or_false, List.mem_singleton] at h
  rcases h with (h | h) | h
  · split at h
    · exact hdigit _ _ h
    · simp [hdigit] at h
  all_goals exact absurd h (by decide)

theorem splitIndexName_total (docType dataset : Text) (now : DateTime) :
    ∃ a b, splitIndexName (rootDoctypeDatasetTs docType dataset now) = .ok (a, b) := by
  obtain ⟨date, time, fraction, hd, ht, hf, he⟩ := format_pieces now
  have hsuffix : (splitIndexNameRegex.captures now.format).isSome := by
    refine splitIndexName_ok_iff.mp ⟨time, fraction, ?_⟩
    have := splitIndexName_three [] hd ht hf (by simp)
    rwa [List.append_nil, ← he] at this
  have hname : rootDoctypeDatasetTs docType dataset now =
      (indexRoot ++ '_' :: docType ++ '_' :: dataset ++ ['_']) ++ now.format := by
    simp [rootDoctypeDatasetTs]
  rw [splitIndexName_ok_iff, hname]
  exact captures_append _ hsuffix

end Mimirsbrunn
