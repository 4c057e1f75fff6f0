import Mimirsbrunn.Library.Tiers
import Mimirsbrunn.Osm.Street

namespace Mimirsbrunn

instance : Std.LawfulEqOrd OsmId := ⟨fun h => compare_eq_iff_eq.mp h⟩

open Regex Std

inductive Kind where
  | Node
  | Way
  | Relation
  deriving DecidableEq, Repr

namespace OsmId

def innerId : OsmId → Int
  | .node id => id
  | .way id => id
  | .relation id => id

def kind : OsmId → Kind
  | .node _ => .Node
  | .way _ => .Way
  | .relation _ => .Relation

def ofKind : Kind → Int → OsmId
  | .Node, id => .node id
  | .Way, id => .way id
  | .Relation, id => .relation id

theorem ofKind_eq {k : Kind} {i : Int} {id : OsmId} :
    ofKind k i = id ↔ i = id.innerId ∧ k = id.kind := by
  cases k <;> cases id <;> simp [ofKind, innerId, kind]

theorem ofKind_self (id : OsmId) : ofKind id.kind id.innerId = id := ofKind_eq.mpr ⟨rfl, rfl⟩

end OsmId

def OsmObj.kind (obj : OsmObj) : Kind := obj.id.kind

-- A row of the table `ids`, under UNIQUE(id, kind).
structure Row where
  id : Int
  obj : OsmObj
  kind : Kind

def Row.entry (row : Row) : OsmId × OsmObj := (.ofKind row.kind row.id, row.obj)

structure Db where
  buffer : TreeMap OsmId OsmObj
  ids : List Row
  db_buffer_size : Nat

namespace Db

def new (db_buffer_size : Nat) : Db := ⟨∅, [], db_buffer_size⟩

def select (db : Db) (id : OsmId) : Option Row :=
  db.ids.find? (fun row => row.id = id.innerId ∧ row.kind = id.kind)

def get (db : Db) (id : OsmId) : Option OsmObj :=
  match db.buffer[id]? with
  | some obj => some obj
  | none => (db.select id).map Row.obj

def containsKey (db : Db) (id : OsmId) : Bool :=
  if db.buffer.contains id then true else (db.select id).isSome

-- The order of the hash map and that of the rows are left open.
def forEachFilter (db : Db) (values : Reordering (OsmId × OsmObj)) (rows : Reordering Row)
    (filter : Kind) : List OsmObj :=
  ((values.run db.buffer.toList).map Prod.snd).filter (fun obj => obj.kind = filter) ++
    (rows.run (db.ids.filter (fun row => row.kind = filter))).map Row.obj

def insertOrIgnore (ids : List Row) (e : OsmId × OsmObj) : List Row :=
  if ids.any (fun row => row.id = e.1.innerId ∧ row.kind = e.2.kind) then ids
  else ids ++ [⟨e.1.innerId, e.2, e.2.kind⟩]

def flushBuffer (db : Db) (drain : Reordering (OsmId × OsmObj)) : Db :=
  if db.buffer.isEmpty then db
  else { db with
    buffer := ∅
    ids := (drain.run db.buffer.toList).foldl insertOrIgnore db.ids }

def insert (db : Db) (drain : Reordering (OsmId × OsmObj)) (id : OsmId) (obj : OsmObj) : Db :=
  let db := if db.buffer.size ≥ db.db_buffer_size then db.flushBuffer drain else db
  { db with buffer := db.buffer.insert id obj }

end Db

abbrev OsmMap := TreeMap OsmId OsmObj

def OsmMap.forEachFilter (m : OsmMap) (filter : Kind) : List OsmObj :=
  (m.toList.map Prod.snd).filter (fun obj => obj.kind = filter)

structure Insertion where
  id : OsmId
  obj : OsmObj
  drain : Reordering (OsmId × OsmObj)

def Db.run (db_buffer_size : Nat) (steps : List Insertion) : Db :=
  steps.foldl (fun db step => db.insert step.drain step.id step.obj) (.new db_buffer_size)

def OsmMap.run (steps : List Insertion) : OsmMap :=
  steps.foldl (fun m step => m.insert step.id step.obj) ∅

structure SameStore (db : Db) (m : OsmMap) : Prop where
  get : ∀ id, db.get id = m[id]?
  contains_key : ∀ id, db.containsKey id = m.contains id
  for_each_filter : ∀ values rows filter,
    (db.forEachFilter values rows filter).Perm (m.forEachFilter filter)

namespace Db

variable {db : Db} {m : OsmMap} {id : OsmId} {obj : OsmObj} {drain : Reordering (OsmId × OsmObj)}

def entries (db : Db) : List (OsmId × OsmObj) := db.ids.map Row.entry

def Kinded (db : Db) : Prop := ∀ row ∈ db.ids, row.kind = row.obj.kind

theorem lookup_entries (ids : List Row) (id : OsmId) :
    Tiers.lookup (ids.map Row.entry) id =
      (ids.find? (fun row => row.id = id.innerId ∧ row.kind = id.kind)).map Row.obj := by
  rw [Tiers.lookup, List.find?_map, Option.map_map]
  have hkey : (fun e : OsmId × OsmObj => decide (e.1 = id)) ∘ Row.entry =
      fun row => decide (row.id = id.innerId ∧ row.kind = id.kind) := by
    funext row
    exact decide_eq_decide.mpr OsmId.ofKind_eq
  rw [hkey]
  rfl

theorem get_eq (db : Db) (id : OsmId) :
    db.get id = db.buffer[id]?.or (Tiers.lookup db.entries id) := by
  rw [entries, lookup_entries, get]
  cases db.buffer[id]? <;> rfl

theorem containsKey_eq (db : Db) (id : OsmId) : db.containsKey id = (db.get id).isSome := by
  rw [containsKey, get]
  cases hb : db.buffer[id]? with
  | none =>
      rw [if_neg (by simp [← TreeMap.isSome_getElem?_eq_contains, hb]), Option.isSome_map]
  | some obj => rw [if_pos (by simp [← TreeMap.isSome_getElem?_eq_contains, hb]), Option.isSome_some]

theorem select_none (db : Db) (id : OsmId) :
    db.select id = none ↔ id ∉ db.entries.map Prod.fst := by
  rw [← Tiers.lookup_none, entries, lookup_entries, Option.map_eq_none_iff, select]

theorem rows_filter (hk : db.Kinded) (filter : Kind) :
    (db.ids.filter (fun row => row.kind = filter)).map Row.obj =
      (db.entries.map Prod.snd).filter (fun obj => obj.kind = filter) := by
  rw [entries, List.map_map, List.filter_map]
  refine congrArg (List.map _) (List.filter_congr (fun row hrow => ?_))
  rw [hk row hrow]
  rfl

theorem forEachFilter_perm (hk : db.Kinded) (values : Reordering (OsmId × OsmObj))
    (rows : Reordering Row) (filter : Kind) :
    (db.forEachFilter values rows filter).Perm
      (((db.buffer.toList ++ db.entries).map Prod.snd).filter (fun obj => obj.kind = filter)) := by
  rw [List.map_append, List.filter_append, ← rows_filter hk]
  exact (((values.perm _).map _).filter _).append ((rows.perm _).map _)

theorem sameStore_of_splits (hk : db.Kinded) (h : Tiers.Splits db.buffer db.entries m) :
    SameStore db m where
  get id := by rw [get_eq, h.get]
  contains_key id := by
    rw [containsKey_eq, get_eq, ← h.get, TreeMap.isSome_getElem?_eq_contains]
  for_each_filter values rows filter :=
    (forEachFilter_perm hk values rows filter).trans ((List.Perm.map _ h).filter _)

section Flush

variable {ids : List Row} {e : OsmId × OsmObj} {drained : List (OsmId × OsmObj)}

theorem insertOrIgnore_fresh (hkind : e.2.kind = e.1.kind)
    (hnew : e.1 ∉ (ids.map Row.entry).map Prod.fst) :
    (insertOrIgnore ids e).map Row.entry = ids.map Row.entry ++ [e] := by
  rw [← Tiers.lookup_none, lookup_entries, Option.map_eq_none_iff, ← hkind] at hnew
  rw [insertOrIgnore, if_neg]
  · rw [List.map_append, List.map_singleton, Row.entry, hkind, OsmId.ofKind_self]
  · rw [List.any_eq_true]
    rintro ⟨row, hrow, hp⟩
    exact List.find?_eq_none.mp hnew row hrow hp

theorem foldl_insertOrIgnore (hkind : ∀ e ∈ drained, e.2.kind = e.1.kind)
    (hnodup : ((ids.map Row.entry).map Prod.fst ++ drained.map Prod.fst).Nodup) :
    (drained.foldl insertOrIgnore ids).map Row.entry = ids.map Row.entry ++ drained := by
  induction drained generalizing ids with
  | nil => simp
  | cons e drained ih =>
      have hnew : e.1 ∉ (ids.map Row.entry).map Prod.fst := fun hm =>
        (List.nodup_append.mp hnodup).2.2 e.1 hm e.1 (by simp) rfl
      have hstep := insertOrIgnore_fresh (hkind e List.mem_cons_self) hnew
      rw [List.foldl_cons, ih (fun e he => hkind e (List.mem_cons_of_mem _ he)), hstep]
      · simp
      · rw [hstep]
        simpa using hnodup

theorem insertOrIgnore_kinded (hk : ∀ row ∈ ids, row.kind = row.obj.kind) :
    ∀ row ∈ insertOrIgnore ids e, row.kind = row.obj.kind := by
  rw [insertOrIgnore]
  split
  · exact hk
  · intro row hrow
    rcases List.mem_append.mp hrow with hrow | hrow
    · exact hk row hrow
    · obtain rfl := List.mem_singleton.mp hrow
      rfl

theorem foldl_insertOrIgnore_kinded (hk : ∀ row ∈ ids, row.kind = row.obj.kind) :
    ∀ row ∈ drained.foldl insertOrIgnore ids, row.kind = row.obj.kind := by
  induction drained generalizing ids with
  | nil => exact hk
  | cons e drained ih => exact ih (insertOrIgnore_kinded hk)

theorem insertOrIgnore_keys : (ids.map Row.entry).map Prod.fst ⊆
    ((insertOrIgnore ids e).map Row.entry).map Prod.fst := by
  rw [insertOrIgnore]
  split
  · exact fun _ h => h
  · intro id h
    simp only [List.map_append, List.mem_append]
    exact .inl h

theorem insertOrIgnore_key (hkind : e.2.kind = e.1.kind) :
    e.1 ∈ ((insertOrIgnore ids e).map Row.entry).map Prod.fst := by
  by_cases hnew : e.1 ∈ (ids.map Row.entry).map Prod.fst
  · exact insertOrIgnore_keys hnew
  · rw [insertOrIgnore_fresh hkind hnew]
    simp

end Flush

theorem flushBuffer_ids (db : Db) (drain : Reordering (OsmId × OsmObj)) :
    (db.flushBuffer drain).ids = (drain.run db.buffer.toList).foldl insertOrIgnore db.ids := by
  rw [flushBuffer]
  split
  · next hempty =>
    have hnil : drain.run db.buffer.toList = [] := by
      refine List.Perm.eq_nil ((drain.perm _).trans ?_)
      rw [List.isEmpty_iff.mp (TreeMap.isEmpty_toList.trans hempty)]
    rw [hnil, List.foldl_nil]
  · rfl

theorem flushBuffer_kinded (hk : db.Kinded) : (db.flushBuffer drain).Kinded := by
  rw [Kinded, flushBuffer_ids]
  exact foldl_insertOrIgnore_kinded hk

theorem flushBuffer_buffer : (db.flushBuffer drain).buffer.toList = [] := by
  rw [flushBuffer]
  split
  · next hempty => exact List.isEmpty_iff.mp (TreeMap.isEmpty_toList.trans hempty)
  · rfl

theorem flushBuffer_splits (h : Tiers.Splits db.buffer db.entries m)
    (hkind : ∀ e ∈ db.buffer.toList, e.2.kind = e.1.kind) :
    Tiers.Splits (db.flushBuffer drain).buffer (db.flushBuffer drain).entries m := by
  have hperm := drain.perm db.buffer.toList
  have hnodup : (db.entries.map Prod.fst ++ (drain.run db.buffer.toList).map Prod.fst).Nodup := by
    rw [(List.perm_append_comm.trans ((hperm.map Prod.fst).append_right _)).nodup_iff]
    exact h.keys
  have hentries : (db.flushBuffer drain).entries =
      db.entries ++ drain.run db.buffer.toList := by
    rw [entries, flushBuffer_ids]
    exact foldl_insertOrIgnore (fun e he => hkind e (hperm.mem_iff.mp he)) hnodup
  rw [Tiers.Splits, flushBuffer_buffer, hentries]
  exact h.drain hperm

structure Fresh (db : Db) (id : OsmId) : Prop where
  unflushed : db.select id = none
  full : db.buffer.size ≥ db.db_buffer_size →
    db.buffer[id]? = none ∧ ∀ e ∈ db.buffer.toList, e.2.kind = e.1.kind

theorem insert_splits (hk : db.Kinded) (h : Tiers.Splits db.buffer db.entries m)
    (hf : db.Fresh id) :
    (db.insert drain id obj).Kinded ∧
      Tiers.Splits (db.insert drain id obj).buffer (db.insert drain id obj).entries
        (m.insert id obj) := by
  rw [insert]
  split
  · next hfull =>
    obtain ⟨hbuffer, hkind⟩ := hf.full hfull
    have hsplit : Tiers.Splits (db.flushBuffer drain).buffer (db.flushBuffer drain).entries m :=
      flushBuffer_splits h hkind
    refine ⟨flushBuffer_kinded hk, hsplit.insert ?_ obj⟩
    have hkeys := (hsplit.get id).symm.trans (h.get id)
    rw [hbuffer, Tiers.lookup_none.mpr ((select_none db id).mp hf.unflushed)] at hkeys
    exact Tiers.lookup_none.mp (Option.or_eq_none_iff.mp hkeys).2
  · exact ⟨hk, h.insert ((select_none db id).mp hf.unflushed) obj⟩

end Db

section Runs

variable {db_buffer_size : Nat} {steps : List Insertion} {step : Insertion}

theorem Db.run_append : Db.run db_buffer_size (steps ++ [step]) =
    (Db.run db_buffer_size steps).insert step.drain step.id step.obj := by
  simp only [Db.run, List.foldl_append, List.foldl_cons, List.foldl_nil]

theorem OsmMap.run_append : OsmMap.run (steps ++ [step]) =
    (OsmMap.run steps).insert step.id step.obj := by
  simp only [OsmMap.run, List.foldl_append, List.foldl_cons, List.foldl_nil]

def FreshRun (db_buffer_size : Nat) (steps : List Insertion) : Prop :=
  ∀ before step after, steps = before ++ step :: after →
    (Db.run db_buffer_size before).Fresh step.id

theorem FreshRun.of_append {after : List Insertion}
    (h : FreshRun db_buffer_size (steps ++ after)) : FreshRun db_buffer_size steps :=
  fun before step rest hs => h before step (rest ++ after) (by rw [hs]; simp)

theorem run_splits (h : FreshRun db_buffer_size steps) : (Db.run db_buffer_size steps).Kinded ∧
    Tiers.Splits (Db.run db_buffer_size steps).buffer (Db.run db_buffer_size steps).entries
      (OsmMap.run steps) := by
  induction steps using List.reverseRecOn with
  | nil => exact ⟨List.forall_mem_nil _, List.Perm.refl _⟩
  | append_singleton steps step ih =>
      obtain ⟨hk, hs⟩ := ih h.of_append
      rw [Db.run_append, OsmMap.run_append]
      exact Db.insert_splits hk hs (h steps step [] rfl)

def OwnIds (steps : List Insertion) : Prop := ∀ step ∈ steps, step.obj.id = step.id

structure Owned (db : Db) (m : OsmMap) : Prop where
  buffer : ∀ e ∈ db.buffer.toList, e.2.id = e.1
  rows : ∀ e ∈ db.entries, e.2.id = e.1
  whole : ∀ e ∈ m.toList, e.2.id = e.1

theorem insert_owned {m : OsmMap} {id : OsmId} {obj : OsmObj} (hid : obj.id = id)
    (h : ∀ e ∈ m.toList, e.2.id = e.1) : ∀ e ∈ (m.insert id obj).toList, e.2.id = e.1 := by
  intro e he
  rcases List.mem_cons.mp (TreeMap.toList_insert_perm.mem_iff.mp he) with rfl | he
  · exact hid
  · exact h e (List.mem_of_mem_filter he)

theorem insertOrIgnore_owned {ids : List Row} {e : OsmId × OsmObj} (hid : e.2.id = e.1)
    (h : ∀ e ∈ ids.map Row.entry, e.2.id = e.1) :
    ∀ e' ∈ (Db.insertOrIgnore ids e).map Row.entry, e'.2.id = e'.1 := by
  rw [Db.insertOrIgnore]
  split
  · exact h
  · intro e' he
    rw [List.map_append, List.mem_append] at he
    rcases he with he | he
    · exact h e' he
    · obtain rfl := List.mem_singleton.mp he
      exact (OsmId.ofKind_eq.mpr ⟨hid ▸ rfl, rfl⟩).symm

theorem foldl_insertOrIgnore_owned {ids : List Row} {drained : List (OsmId × OsmObj)}
    (hd : ∀ e ∈ drained, e.2.id = e.1) (h : ∀ e ∈ ids.map Row.entry, e.2.id = e.1) :
    ∀ e ∈ (drained.foldl Db.insertOrIgnore ids).map Row.entry, e.2.id = e.1 := by
  induction drained generalizing ids with
  | nil => exact h
  | cons e drained ih =>
      exact ih (fun e' he => hd e' (List.mem_cons_of_mem _ he))
        (insertOrIgnore_owned (hd e List.mem_cons_self) h)

theorem Owned.insert {db : Db} {m : OsmMap} (h : Owned db m)
    (hid : step.obj.id = step.id) :
    Owned (db.insert step.drain step.id step.obj) (m.insert step.id step.obj) := by
  refine ⟨?_, ?_, insert_owned hid h.whole⟩
  · rw [Db.insert]
    split
    · refine insert_owned hid ?_
      rw [Db.flushBuffer_buffer]
      exact List.forall_mem_nil _
    · exact insert_owned hid h.buffer
  · rw [Db.insert]
    split
    · rw [Db.entries, Db.flushBuffer_ids]
      exact foldl_insertOrIgnore_owned (fun e he => h.buffer e ((step.drain.perm _).mem_iff.mp he))
        h.rows
    · exact h.rows

theorem run_owned (h : OwnIds steps) :
    Owned (Db.run db_buffer_size steps) (OsmMap.run steps) := by
  induction steps using List.reverseRecOn with
  | nil => exact ⟨List.forall_mem_nil _, List.forall_mem_nil _, List.forall_mem_nil _⟩
  | append_singleton steps step ih =>
      rw [Db.run_append, OsmMap.run_append]
      exact (ih (fun s hs => h s (List.mem_append_left _ hs))).insert (h step (by simp))

theorem Owned.whole_nodup {db : Db} {m : OsmMap} (h : Owned db m) :
    ((m.toList.map Prod.snd).map OsmObj.id).Nodup := by
  have hkeys : (m.toList.map Prod.snd).map OsmObj.id = m.toList.map Prod.fst := by
    rw [List.map_map]
    exact List.map_congr_left h.whole
  rw [hkeys]
  exact Tiers.keys_nodup m

theorem Owned.unflushed {db : Db} {m : OsmMap} (h : Owned db m) (hsame : SameStore db m)
    {id : OsmId} {obj : OsmObj} (hb : db.buffer[id]? = some obj) :
    id ∉ db.entries.map Prod.fst := by
  intro hm
  obtain ⟨e, he, hkey⟩ := List.mem_map.mp hm
  obtain ⟨row, hrow, rfl⟩ := List.mem_map.mp he
  obtain ⟨hinner, hkind⟩ := OsmId.ofKind_eq.mp hkey
  have hobj : obj.id = id := h.buffer _ (TreeMap.mem_toList_iff_getElem?_eq_some.mpr hb)
  have hnodup : ((db.forEachFilter .refl .refl id.kind).map OsmObj.id).Nodup := by
    rw [((hsame.for_each_filter .refl .refl id.kind).map OsmObj.id).nodup_iff]
    exact h.whole_nodup.sublist (List.filter_sublist.map _)
  rw [Db.forEachFilter, List.map_append, List.nodup_append] at hnodup
  refine hnodup.2.2 id ?_ id ?_ rfl
  · refine List.mem_map.mpr ⟨obj, List.mem_filter.mpr ⟨?_, ?_⟩, hobj⟩
    · exact List.mem_map.mpr ⟨(id, obj), TreeMap.mem_toList_iff_getElem?_eq_some.mpr hb, rfl⟩
    · rw [OsmObj.kind, hobj]
      exact decide_eq_true rfl
  · refine List.mem_map.mpr ⟨row.obj, List.mem_map.mpr ⟨row, List.mem_filter.mpr ⟨hrow, ?_⟩, rfl⟩, ?_⟩
    · exact decide_eq_true hkind
    · exact (h.rows _ he).trans hkey

theorem foldl_insertOrIgnore_keys {ids : List Row} {drained : List (OsmId × OsmObj)}
    (hkind : ∀ e ∈ drained, e.2.kind = e.1.kind) {id : OsmId}
    (hid : id ∈ (ids.map Row.entry).map Prod.fst ∨ id ∈ drained.map Prod.fst) :
    id ∈ ((drained.foldl Db.insertOrIgnore ids).map Row.entry).map Prod.fst := by
  induction drained generalizing ids with
  | nil => exact hid.resolve_right List.not_mem_nil
  | cons e drained ih =>
      refine ih (fun e' he => hkind e' (List.mem_cons_of_mem _ he)) ?_
      rcases hid with hid | hid
      · exact .inl (Db.insertOrIgnore_keys hid)
      · rcases List.mem_cons.mp hid with rfl | hid
        · exact .inl (Db.insertOrIgnore_key (hkind e List.mem_cons_self))
        · exact .inr hid

theorem Owned.fresh {db : Db} {m : OsmMap} (h : Owned db m) (hid : step.obj.id = step.id)
    (hsame : SameStore (db.insert step.drain step.id step.obj) (m.insert step.id step.obj)) :
    db.Fresh step.id := by
  have hkind : ∀ e ∈ db.buffer.toList, e.2.kind = e.1.kind := fun e he =>
    congrArg OsmId.kind (h.buffer e he)
  have hbuffer : (db.insert step.drain step.id step.obj).buffer[step.id]? = some step.obj := by
    simp [Db.insert]
  have hnew := (h.insert hid).unflushed hsame hbuffer
  rw [Db.insert] at hnew
  split at hnew
  · next hfull =>
    rw [Db.entries, Db.flushBuffer_ids] at hnew
    have hperm := step.drain.perm db.buffer.toList
    have hkeys := mt (foldl_insertOrIgnore_keys
      (fun e he => hkind e (hperm.mem_iff.mp he))) hnew
    obtain ⟨hrows, hdrained⟩ := not_or.mp hkeys
    refine ⟨(Db.select_none db step.id).mpr hrows, fun _ => ⟨?_, hkind⟩⟩
    refine Option.eq_none_iff_forall_ne_some.mpr (fun obj hb => hdrained ?_)
    have hvalue := hperm.mem_iff.mpr (TreeMap.mem_toList_iff_getElem?_eq_some.mpr hb)
    exact List.mem_map.mpr ⟨_, hvalue, rfl⟩
  · next hroom => exact ⟨(Db.select_none db step.id).mpr hnew, fun hfull => absurd hfull hroom⟩

def DbLikeMap (db_buffer_size : Nat) (steps : List Insertion) : Prop :=
  ∀ before after, steps = before ++ after →
    SameStore (Db.run db_buffer_size before) (OsmMap.run before)

theorem db_like_map_when_fresh (db_buffer_size : Nat) (steps : List Insertion) :
    (FreshRun db_buffer_size steps → DbLikeMap db_buffer_size steps) ∧
    (OwnIds steps → DbLikeMap db_buffer_size steps → FreshRun db_buffer_size steps) := by
  constructor
  · rintro h before after rfl
    obtain ⟨hk, hs⟩ := run_splits h.of_append
    exact Db.sameStore_of_splits hk hs
  · rintro hown h before step after rfl
    have hsame := h (before ++ [step]) after (by simp)
    rw [Db.run_append, OsmMap.run_append] at hsame
    exact (run_owned (fun s hs => hown s (List.mem_append_left _ hs))).fresh
      (hown step (by simp)) hsame

theorem filterMap_kind {α : Type} {as : OsmObj → Option α} {wrap : α → OsmObj} {filter : Kind}
    (has : ∀ obj, (as obj).map wrap = if obj.kind = filter then some obj else none)
    (objs : List OsmObj) :
    (objs.filterMap as).map wrap = objs.filter (fun obj => obj.kind = filter) := by
  rw [List.map_filterMap, ← List.filterMap_eq_filter]
  refine List.filterMap_congr (fun obj _ => ?_)
  rw [has obj]
  by_cases hk : obj.kind = filter <;> simp [hk, Option.guard]

theorem OsmMap.stored (h : OwnIds steps) : ∃ objs_map : ObjWrapper,
    (∀ id, objs_map.get id = (OsmMap.run steps)[id]?) ∧
    objs_map.ways.map .way = (OsmMap.run steps).forEachFilter .Way ∧
    objs_map.relations.map .relation = (OsmMap.run steps).forEachFilter .Relation := by
  have hown := @run_owned 0 steps h
  refine ⟨⟨(OsmMap.run steps).toList.map Prod.snd, hown.whole_nodup⟩, fun id => ?_, ?_, ?_⟩
  · refine Option.ext (fun obj => ?_)
    rw [ObjWrapper.get_eq_some, ← TreeMap.mem_toList_iff_getElem?_eq_some, List.mem_map]
    constructor
    · rintro ⟨⟨e, he, rfl⟩, hid⟩
      exact hid ▸ hown.whole e he ▸ he
    · exact fun he => ⟨⟨_, he, rfl⟩, hown.whole _ he⟩
  · refine filterMap_kind (fun obj => ?_) _
    cases obj <;> rfl
  · refine filterMap_kind (fun obj => ?_) _
    cases obj <;> rfl

end Runs

def wayInsertion (id : Int) (nodes : List Int) : Insertion :=
  ⟨.way id, .way ⟨id, ∅, nodes⟩, .refl⟩

theorem flushed_way_visited_twice :
    ¬ DbLikeMap 1 [wayInsertion 5 [1], wayInsertion 7 [2], wayInsertion 5 [3]] := by
  intro h
  have hperm := (h _ [] (List.append_nil _).symm).for_each_filter .refl .refl .Way
  exact absurd hperm.length_eq (by decide +kernel)

end Mimirsbrunn
