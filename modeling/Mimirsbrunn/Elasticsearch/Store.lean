import Std.Data.TreeMap.Lemmas
import Mathlib.Algebra.GroupWithZero.Nat
import Mathlib.Data.List.Lex
import Mimirsbrunn.Library.Client
import Mimirsbrunn.Library.Regex

namespace Mimirsbrunn
open Regex Std

class Document (D : Type) where
  id : D → Text

inductive UpdateOperation where
  | set (ident value : Text)
  deriving DecidableEq, Repr

inductive BulkOperation (D : Type) where
  | index (id : Text) (document : D)
  | update (id : Text) (operation : UpdateOperation)
  deriving DecidableEq

def BulkOperation.id {D : Type} : BulkOperation D → Text
  | .index id _ => id
  | .update id _ => id

structure EsIndex (D : Type) where
  number_of_shards : Nat
  number_of_replicas : Nat
  docs : TreeMap Text D
  searchable : TreeMap Text D
  aliases : List Text

structure Store (D : Type) where
  indices : TreeMap Text (EsIndex D)
  pipelines : List Text

-- What the server decides by itself: the index names and documents it accepts, and its scripts.
structure Engine (D : Type) where
  accepts : Text → Bool
  accepts_literal : ∀ n, accepts n = true → '*' ∉ n
  parses : D → Bool
  script : UpdateOperation → D → Option D

inductive AliasAction where
  | add (name : Text) (indices : List Text)
  | remove (name : Text) (indices : List Text)
  deriving DecidableEq, Repr

def AliasAction.indices : AliasAction → List Text
  | .add _ indices => indices
  | .remove _ indices => indices

inductive Request (D : Type) where
  | createIndex (index : Text) (number_of_shards number_of_replicas : Nat)
  | catIndices (index : Text)
  | putPipeline (name : Text)
  | bulk (index : Text) (body : List (BulkOperation D))
  | refresh (index : Text)
  | getAlias (index : Text)
  | updateAliases (actions : List AliasAction)
  | deleteIndex (index : Text)
  | forcemerge (indices : List Text) (max_num_segments : Int)

inductive Acknowledgement where
  | notObject
  | missing
  | notBool
  | value (b : Bool)
  deriving DecidableEq, Repr

structure ElasticsearchIndex where
  name : Text
  docs_count : Option Nat
  status : Text
  deriving DecidableEq, Repr

structure BulkError where
  reason : Text
  caused_by : Option Text
  deriving DecidableEq, Repr

inductive BulkResult where
  | Created
  | Updated
  | Deleted
  deriving DecidableEq, Repr

structure BulkStatus where
  id : Text
  result : Except BulkError BulkResult

structure Exception where
  root_cause : List (Option Text)
  reason : Option Text
  deriving DecidableEq, Repr

inductive Response where
  | transport
  | rejected (exception : Option (Option Exception))
  | unparsable
  | acknowledged (a : Acknowledgement)
  | cat (rows : List ElasticsearchIndex)
  | items (items : List BulkStatus)
  | refreshed
  | aliases (body : Option (List (Text × Option (List Text))))
  | shards (successful : Option Nat)

def Response.exception (reason : Text) : Response :=
  .rejected (some (some ⟨[some reason], some reason⟩))

def noSuchIndex (index : Text) : Response :=
  .exception ("no such index [".toList ++ index ++ "]".toList)

def glob : Text → Text → Bool
  | [] => fun s => s.isEmpty
  | c :: p =>
      if c = '*' then fun s => s.tails.any (glob p)
      else fun s => match s with
        | [] => false
        | d :: s => d == c && glob p s

namespace EsIndex

variable {D : Type}

def empty (shards replicas : Nat) : EsIndex D := ⟨shards, replicas, ∅, ∅, []⟩

def shardCopies (i : EsIndex D) : Nat := i.number_of_shards * (1 + i.number_of_replicas)

def addAlias (a : Text) (i : EsIndex D) : EsIndex D :=
  { i with aliases := if a ∈ i.aliases then i.aliases else a :: i.aliases }

def removeAlias (a : Text) (i : EsIndex D) : EsIndex D :=
  { i with aliases := i.aliases.filter (· ≠ a) }

def apply (E : Engine D) (i : EsIndex D) : BulkOperation D → EsIndex D × BulkStatus
  | .index id d =>
      if E.parses d then
        ({ i with docs := i.docs.insert id d },
          ⟨id, .ok (if id ∈ i.docs then .Updated else .Created)⟩)
      else (i, ⟨id, .error ⟨"failed to parse".toList, none⟩⟩)
  | .update id op =>
      match i.docs[id]? with
      | some d =>
          match E.script op d with
          | some d' => ({ i with docs := i.docs.insert id d' }, ⟨id, .ok .Updated⟩)
          | none => (i, ⟨id, .error ⟨"failed to execute script".toList, none⟩⟩)
      | none => (i, ⟨id, .error ⟨"document missing".toList, none⟩⟩)

def applyAll (E : Engine D) : EsIndex D → List (BulkOperation D) → EsIndex D × List BulkStatus
  | i, [] => (i, [])
  | i, op :: ops =>
      let r := i.apply E op
      let rs := applyAll E r.1 ops
      (rs.1, r.2 :: rs.2)

theorem aliases_apply (E : Engine D) (i : EsIndex D) (op : BulkOperation D) :
    (i.apply E op).1.aliases = i.aliases := by
  cases op with
  | index id d => simp only [apply]; split <;> rfl
  | update id op => simp only [apply]; split <;> (try split) <;> rfl

theorem aliases_applyAll (E : Engine D) (i : EsIndex D) (ops : List (BulkOperation D)) :
    (i.applyAll E ops).1.aliases = i.aliases := by
  induction ops generalizing i with
  | nil => rfl
  | cons op ops ih => simp [applyAll, ih, aliases_apply]

theorem mem_aliases_addAlias (i : EsIndex D) (a b : Text) :
    b ∈ (i.addAlias a).aliases ↔ b = a ∨ b ∈ i.aliases := by
  simp only [addAlias]
  split
  · next h => exact ⟨Or.inr, fun hb => hb.elim (fun hb => hb ▸ h) id⟩
  · simp

theorem mem_aliases_removeAlias (i : EsIndex D) (a b : Text) :
    b ∈ (i.removeAlias a).aliases ↔ b ∈ i.aliases ∧ b ≠ a := by
  simp [removeAlias]

end EsIndex

namespace Store

variable {D : Type}

def aliasesOf (s : Store D) (n : Text) : List Text := (s.indices[n]?).elim [] EsIndex.aliases

def Aliased (s : Store D) (a n : Text) : Prop := a ∈ s.aliasesOf n

instance (s : Store D) (a n : Text) : Decidable (s.Aliased a n) :=
  inferInstanceAs (Decidable (_ ∈ _))

def resolve (s : Store D) (a : Text) : List Text := s.indices.keys.filter (s.Aliased a ·)

def createIndex (E : Engine D) (n : Text) (shards replicas : Nat) (s : Store D) :
    Store D × Response :=
  if n ∈ s.indices then
    (s, .exception ("index [".toList ++ n ++ "] already exists".toList))
  else if E.accepts n then
    ({ s with indices := s.indices.insert n (.empty shards replicas) }, .acknowledged (.value true))
  else (s, .exception ("Invalid index name [".toList ++ n ++ "]".toList))

def catIndices (n : Text) (s : Store D) : Response :=
  match s.indices[n]? with
  | some i => .cat [⟨n, some i.searchable.size, "open".toList⟩]
  | none => noSuchIndex n

-- A bulk request on an index that does not exist creates it.
def bulk (E : Engine D) (n : Text) (ops : List (BulkOperation D)) (s : Store D) :
    Store D × Response :=
  if n ∈ s.indices ∨ E.accepts n = true then
    let r := ((s.indices[n]?).getD (.empty 1 1)).applyAll E ops
    ({ s with indices := s.indices.insert n r.1 }, .items r.2)
  else (s, noSuchIndex n)

def refresh (n : Text) (s : Store D) : Store D × Response :=
  match s.indices[n]? with
  | some i => ({ s with indices := s.indices.insert n { i with searchable := i.docs } }, .refreshed)
  | none => (s, noSuchIndex n)

def getAlias (pattern : Text) (s : Store D) : Response :=
  .aliases (some ((s.indices.keys.filter (glob pattern ·)).map
    (fun n => (n, some (s.aliasesOf n)))))

def act (s : Store D) : AliasAction → Store D
  | .add a ns => { s with indices := s.indices.map (fun n i => if n ∈ ns then i.addAlias a else i) }
  | .remove a ns =>
      { s with indices := s.indices.map (fun n i => if n ∈ ns then i.removeAlias a else i) }

def missing (s : Store D) (ns : List Text) : Option Text := ns.find? (· ∉ s.indices)

def updateAliases (actions : List AliasAction) (s : Store D) : Store D × Response :=
  match s.missing (actions.flatMap AliasAction.indices) with
  | some n => (s, noSuchIndex n)
  | none => (actions.foldl act s, .acknowledged (.value true))

def deleteIndex (n : Text) (s : Store D) : Store D × Response :=
  if n ∈ s.indices then
    ({ s with indices := s.indices.erase n }, .acknowledged (.value true))
  else (s, noSuchIndex n)

def forcemerge (ns : List Text) (s : Store D) : Response :=
  match s.missing ns with
  | some n => noSuchIndex n
  | none => .shards (some ((ns.map (fun n => (s.indices[n]?).elim 0 EsIndex.shardCopies)).sum))

def serve (E : Engine D) : Request D → Store D → Store D × Response
  | .createIndex n shards replicas, s => s.createIndex E n shards replicas
  | .catIndices n, s => (s, s.catIndices n)
  | .putPipeline name, s => ({ s with pipelines := name :: s.pipelines }, .acknowledged (.value true))
  | .bulk n ops, s => s.bulk E n ops
  | .refresh n, s => s.refresh n
  | .getAlias pattern, s => (s, s.getAlias pattern)
  | .updateAliases actions, s => s.updateAliases actions
  | .deleteIndex n, s => s.deleteIndex n
  | .forcemerge ns _, s => (s, s.forcemerge ns)

-- What an interrupted request leaves behind: all of its effect or none of it, except that a bulk
-- request may stop after any of its operations.
inductive Cut (E : Engine D) : Request D → Store D → Store D → Prop
  | dropped (r : Request D) (s : Store D) : Cut E r s s
  | applied (r : Request D) (s : Store D) : Cut E r s (s.serve E r).1
  | bulk (n : Text) (ops : List (BulkOperation D)) (k : Nat) (s : Store D) :
      Cut E (.bulk n ops) s (s.serve E (.bulk n (ops.take k))).1

variable {E : Engine D} {s : Store D} {n m a b : Text}

theorem mem_iff : m ∈ s.indices ↔ ∃ i, s.indices[m]? = some i := by
  rw [TreeMap.mem_iff_isSome_getElem?, Option.isSome_iff_exists]

theorem aliased_iff : s.Aliased a m ↔ ∃ i, s.indices[m]? = some i ∧ a ∈ i.aliases := by
  unfold Aliased aliasesOf
  cases s.indices[m]? <;> simp

theorem Aliased.mem (h : s.Aliased a m) : m ∈ s.indices := by
  obtain ⟨i, hi, _⟩ := aliased_iff.mp h
  exact mem_iff.mpr ⟨i, hi⟩

theorem getElem?_insert {V : Type} (t : TreeMap Text V) (v : V) :
    (t.insert n v)[m]? = if m = n then some v else t[m]? := by
  simp only [TreeMap.getElem?_insert, Std.compare_eq_iff_eq, eq_comm (a := n)]

theorem getElem?_createIndex (shards replicas : Nat) :
    (s.createIndex E n shards replicas).1.indices[m]? =
      if m = n ∧ n ∉ s.indices ∧ E.accepts n = true then some (.empty shards replicas)
      else s.indices[m]? := by
  rw [createIndex]
  split
  · next h => simp [h]
  · next h =>
    split
    · next ha => simp [h, ha, getElem?_insert]
    · next ha => simp [ha]

theorem createIndex_refused (shards replicas : Nat) (h : ¬ (n ∉ s.indices ∧ E.accepts n = true)) :
    (s.createIndex E n shards replicas).1 = s := by
  rw [createIndex]
  split
  · rfl
  · next hn =>
    split
    · next ha => exact absurd ⟨hn, ha⟩ h
    · rfl

theorem getElem?_bulk (ops : List (BulkOperation D)) :
    (s.bulk E n ops).1.indices[m]? =
      if m = n ∧ (n ∈ s.indices ∨ E.accepts n = true) then
        some (((s.indices[n]?).getD (.empty 1 1)).applyAll E ops).1
      else s.indices[m]? := by
  rw [bulk]
  split
  · next h => simp only [getElem?_insert, h, and_true]
  · next h => simp only [h, and_false, if_false]

theorem getElem?_refresh :
    (s.refresh n).1.indices[m]? =
      if m = n then (s.indices[n]?).map (fun i => { i with searchable := i.docs })
      else s.indices[m]? := by
  rw [refresh]
  split
  · next i h => simp [h, getElem?_insert]
  · next h =>
    split
    · next hm => simp [hm, h]
    · rfl

theorem getElem?_deleteIndex :
    (s.deleteIndex n).1.indices[m]? = if m = n then none else s.indices[m]? := by
  rw [deleteIndex]
  split
  · simp only [TreeMap.getElem?_erase, Std.compare_eq_iff_eq, eq_comm (a := n)]
  · next h =>
    split
    · next hm => subst hm; simp [TreeMap.getElem?_eq_none h]
    · rfl

theorem aliased_createIndex (shards replicas : Nat) :
    (s.createIndex E n shards replicas).1.Aliased a m ↔ s.Aliased a m := by
  simp only [aliased_iff, getElem?_createIndex]
  split
  · next h =>
    obtain ⟨rfl, hn, _⟩ := h
    simp [EsIndex.empty, TreeMap.getElem?_eq_none hn]
  · rfl

theorem aliased_bulk (ops : List (BulkOperation D)) :
    (s.bulk E n ops).1.Aliased a m ↔ s.Aliased a m := by
  simp only [aliased_iff, getElem?_bulk]
  split
  · next h =>
    obtain ⟨rfl, _⟩ := h
    cases hm : s.indices[m]? <;> simp [EsIndex.aliases_applyAll, EsIndex.empty]
  · rfl

theorem aliased_refresh : (s.refresh n).1.Aliased a m ↔ s.Aliased a m := by
  simp only [aliased_iff, getElem?_refresh]
  split
  · next h =>
    subst h
    cases hm : s.indices[m]? <;> simp
  · rfl

theorem aliased_deleteIndex : (s.deleteIndex n).1.Aliased a m ↔ s.Aliased a m ∧ m ≠ n := by
  simp only [aliased_iff, getElem?_deleteIndex]
  split <;> simp_all

theorem mem_deleteIndex : m ∈ (s.deleteIndex n).1.indices ↔ m ∈ s.indices ∧ m ≠ n := by
  simp only [mem_iff, getElem?_deleteIndex]
  split <;> simp_all

theorem mem_createIndex (shards replicas : Nat) :
    m ∈ (s.createIndex E n shards replicas).1.indices ↔
      m ∈ s.indices ∨ (m = n ∧ E.accepts n = true) := by
  by_cases hm : m = n ∧ n ∉ s.indices ∧ E.accepts n = true
  · simp [mem_iff, getElem?_createIndex, hm]
  · rw [mem_iff, getElem?_createIndex, if_neg hm, ← mem_iff]
    constructor
    · exact Or.inl
    · rintro (h | ⟨rfl, ha⟩)
      · exact h
      · by_contra hc
        exact hm ⟨rfl, hc, ha⟩

theorem mem_bulk (ops : List (BulkOperation D)) :
    m ∈ (s.bulk E n ops).1.indices ↔ m ∈ s.indices ∨ (m = n ∧ E.accepts n = true) := by
  by_cases hm : m = n ∧ (n ∈ s.indices ∨ E.accepts n = true)
  · obtain ⟨rfl, h⟩ := hm
    rw [mem_iff, getElem?_bulk, if_pos ⟨rfl, h⟩]
    simpa using h
  · rw [mem_iff, getElem?_bulk, if_neg hm, ← mem_iff]
    constructor
    · exact Or.inl
    · rintro (h | ⟨rfl, ha⟩)
      · exact h
      · exact absurd ⟨rfl, Or.inr ha⟩ hm

theorem mem_refresh : m ∈ (s.refresh n).1.indices ↔ m ∈ s.indices := by
  simp only [mem_iff, getElem?_refresh]
  split
  · next h => subst h; cases s.indices[m]? <;> simp
  · rfl

theorem missing_eq_none {ns : List Text} : s.missing ns = none ↔ ∀ n ∈ ns, n ∈ s.indices := by
  simp [missing]

theorem mem_act (action : AliasAction) : m ∈ (s.act action).indices ↔ m ∈ s.indices := by
  cases action <;> simp [act, mem_iff]

theorem aliased_add {ns : List Text} :
    (s.act (.add a ns)).Aliased b m ↔ s.Aliased b m ∨ (b = a ∧ m ∈ ns ∧ m ∈ s.indices) := by
  simp only [aliased_iff, act, TreeMap.getElem?_map, mem_iff]
  cases s.indices[m]? with
  | none => simp
  | some i =>
    by_cases hm : m ∈ ns <;> simp [hm, EsIndex.mem_aliases_addAlias, or_comm]

theorem aliased_remove {ns : List Text} :
    (s.act (.remove a ns)).Aliased b m ↔ s.Aliased b m ∧ ¬ (b = a ∧ m ∈ ns) := by
  simp only [aliased_iff, act, TreeMap.getElem?_map]
  cases s.indices[m]? with
  | none => simp
  | some i =>
    by_cases hm : m ∈ ns <;> simp [hm, EsIndex.mem_aliases_removeAlias]

end Store

def Request.Fault {D : Type} : Request D → Response → Prop
  | _, .transport => True
  | _, .rejected _ => True
  | .refresh _, _ => False
  | _, .unparsable => True
  | .createIndex .., .acknowledged a => a ≠ .value true
  | .putPipeline _, .acknowledged a => a ≠ .value true
  | .updateAliases _, .acknowledged a => a ≠ .value true
  | .deleteIndex _, .acknowledged a => a ≠ .value true
  | _, _ => False

def elasticsearch {D : Type} (E : Engine D) : Service (Request D) Response (Store D) where
  serve r s := s.serve E r
  cut := Store.Cut E
  fault := Request.Fault

end Mimirsbrunn
