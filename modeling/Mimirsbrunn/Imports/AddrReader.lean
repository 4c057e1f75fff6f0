import Mimirsbrunn.Imports.Walk
import Mimirsbrunn.Library.Chunks
import Mimirsbrunn.Library.Loop
import Mimirsbrunn.Places.Bano

namespace Mimirsbrunn.Imports
open Regex Fused Places

inductive ReadError where
  | Csv (source : Text)
  | InvalidIo (source : Text)
  | InvalidPath (source : Text)
  | InvalidExtention
  deriving DecidableEq, Repr

variable {T Shape Geometry : Type}

def bytes (text : String) : List UInt8 := text.toList.map (fun c => UInt8.ofNat c.toNat)

-- What stands behind the last dot, unless that dot is the first byte.
def File.extension (file : File T) : Option (List UInt8) :=
  let after := file.name.reverse.takeWhile (· != 0x2E)
  if after.length + 1 < file.name.length then some after.reverse else none

def recordsFromFile (file : File T) : Except ReadError (List (Except ReadError T)) :=
  match file.opened with
  | .error source => .error (.InvalidIo source)
  | .ok records =>
      if file.extension = some (bytes "csv") ∨ file.extension = some (bytes "gz") then
        .ok (records.map (Except.mapError .Csv))
      else .error .InvalidExtention

def recordsOfStep : Except Text (File T) → List (Except ReadError T)
  | .error source => [.error (.InvalidIo source)]
  | .ok file => (recordsFromFile file).toOption.getD []

def recordsFromPath (path : Entry T) : List (Except ReadError T) :=
  path.walkFilesRecursive.flatMap recordsOfStep

def metadata : Entry T → Except ReadError Unit
  | .other false error => .error (.InvalidPath error)
  | _ => .ok ()

-- `none` is a panic.
abbrev IntoAddr (T Shape Geometry : Type) := T → Option (Except Error (Addr Shape Geometry))

variable (into_addr : IntoAddr T Shape Geometry)

def hasStreetName (addr : Addr Shape Geometry) : Bool := !addr.street.name.isEmpty

def spawnTask (addresses : List T) : Option (List (Addr Shape Geometry)) :=
  (addresses.mapM into_addr).map (fun results => (oks results).filter hasStreetName)

def chunkTasks (recs : List T) : List (Option (List (Addr Shape Geometry))) :=
  (Chunks.chunks 1000 recs).map (spawnTask into_addr)

def importAddressesFromInputPath (path : Entry T) :
    Except ReadError (List (Option (List (Addr Shape Geometry)))) := do
  metadata path
  return chunkTasks into_addr (oks (recordsFromPath path))

def Yields (num_cpus : Nat) (path : Entry T) (out : List (Addr Shape Geometry)) : Prop :=
  match importAddressesFromInputPath into_addr path with
  | .ok tasks => Driven num_cpus tasks out
  | .error _ => out = []

def addressOf (rec : T) : Option (Addr Shape Geometry) :=
  (into_addr rec).bind (fun result => result.toOption.filter hasStreetName)

def addressesOf (recs : List T) : List (Addr Shape Geometry) := recs.filterMap (addressOf into_addr)

variable {into_addr}

theorem mapM_filter {recs : List T} {results : List (Except Error (Addr Shape Geometry))}
    (h : recs.mapM into_addr = some results) :
    (oks results).filter hasStreetName = addressesOf into_addr recs := by
  induction recs generalizing results with
  | nil =>
      obtain rfl : [] = results := by simpa using h
      rfl
  | cons rec recs ih =>
      rw [List.mapM_cons, Option.bind_eq_bind, Option.bind_eq_some_iff] at h
      obtain ⟨result, hresult, h⟩ := h
      rw [Option.bind_eq_bind, Option.bind_eq_some_iff] at h
      obtain ⟨rest, hrest, h⟩ := h
      obtain rfl := Option.some.inj h
      rw [addressesOf, List.filterMap_cons, addressOf, hresult, ← addressesOf, ← ih hrest]
      cases result with
      | error e => rfl
      | ok addr =>
          rw [oks_ok, List.filter_cons, Option.bind_some]
          cases hname : hasStreetName addr <;> simp [Option.filter, Except.toOption, hname]

theorem spawnTask_some {recs : List T} {out : List (Addr Shape Geometry)}
    (h : spawnTask into_addr recs = some out) : out = addressesOf into_addr recs := by
  obtain ⟨results, hresults, rfl⟩ := Option.map_eq_some_iff.mp h
  exact mapM_filter hresults

theorem spawnTask_none {recs : List T} :
    spawnTask into_addr recs = none ↔ ∃ rec ∈ recs, into_addr rec = none := by
  rw [spawnTask, Option.map_eq_none_iff]
  constructor
  · intro h
    by_contra hall
    obtain ⟨results, hresults⟩ := Loop.mapM_returns (f := into_addr) fun rec hrec =>
      Option.ne_none_iff_exists'.mp fun hnone => hall ⟨rec, hrec, hnone⟩
    rw [hresults] at h
    cases h
  · rintro ⟨rec, hrec, hnone⟩
    cases hresults : recs.mapM into_addr with
    | none => rfl
    | some results =>
        obtain ⟨result, _, hresult⟩ := Loop.mem_of_mapM hresults hrec
        rw [hnone] at hresult
        cases hresult

theorem flatten_spawned {chunks : List (List T)} {outs : List (List (Addr Shape Geometry))}
    (h : chunks.map (spawnTask into_addr) = outs.map some) :
    outs.flatten = addressesOf into_addr chunks.flatten := by
  induction chunks generalizing outs with
  | nil =>
      obtain rfl := List.map_eq_nil_iff.mp h.symm
      rfl
  | cons chunk chunks ih =>
      obtain ⟨out, outs, rfl, hout, houts⟩ := List.map_eq_cons_iff.mp h.symm
      rw [List.flatten_cons, List.flatten_cons, ih houts.symm, spawnTask_some hout.symm,
        addressesOf, addressesOf, addressesOf, List.filterMap_append]

theorem addressesOf_append (xs ys : List T) :
    addressesOf into_addr (xs ++ ys) = addressesOf into_addr xs ++ addressesOf into_addr ys :=
  List.filterMap_append

variable {path : Entry T} {num_cpus : Nat} {out : List (Addr Shape Geometry)}

def File.records (file : File T) : List T := oks ((recordsFromFile file).toOption.getD [])

def reached (path : Entry T) : List T := (oks (upToError path.steps)).flatMap File.records

theorem records_of_steps (steps : List (Except Text (File T))) :
    oks (steps.flatMap recordsOfStep) = (oks steps).flatMap File.records := by
  induction steps with
  | nil => rfl
  | cons step steps ih =>
      rw [List.flatMap_cons, oks_append, ih]
      cases step with
      | error source => rfl
      | ok file => rfl

theorem oks_recordsFromPath (path : Entry T) : oks (recordsFromPath path) = reached path := by
  rw [recordsFromPath, Entry.walkFilesRecursive_eq, records_of_steps, reached]

theorem yields_iff : Yields into_addr num_cpus path out ↔
    Driven num_cpus (chunkTasks into_addr (reached path)) out := by
  rw [Yields, importAddressesFromInputPath, ← oks_recordsFromPath]
  cases hmeta : metadata path with
  | ok _ => rfl
  | error source =>
      obtain ⟨error, rfl⟩ : ∃ error, path = .other false error := by
        rcases path with _ | _ | ⟨_ | _, error⟩
        · cases hmeta
        · cases hmeta
        · exact ⟨error, rfl⟩
        · cases hmeta
      have hread : reached (.other false error : Entry T) = [] := rfl
      rw [oks_recordsFromPath, hread]
      exact (driven_map_some :
        Driven num_cpus (([] : List (List (Addr Shape Geometry))).map some) out ↔
          out = [].flatten).symm

variable (into_addr)

def File.addresses (file : File T) : List (Addr Shape Geometry) :=
  addressesOf into_addr file.records

def importable (path : Entry T) : List (Addr Shape Geometry) :=
  path.files.flatMap (File.addresses into_addr)

def CoversTree (num_cpus : Nat) (path : Entry T) : Prop :=
  ∀ out, Yields into_addr num_cpus path out → out.Perm (importable into_addr path)

-- The walk ends at its first failure, the stream at a conversion that panics.
structure NothingLost (num_cpus : Nat) (path : Entry T) : Prop where
  failure : ∀ before error after, path.steps = before ++ .error error :: after →
    ∀ file, .ok file ∈ after → file.addresses into_addr = []
  panic : ∀ done ahead bad rest,
    Chunks.chunks 1000 (reached path) = done ++ ahead ++ bad :: rest →
    (∀ rec ∈ done.flatten, into_addr rec ≠ none) → ahead.length < max 1 num_cpus →
    (∃ rec ∈ bad, into_addr rec = none) →
    ∀ rec ∈ (ahead ++ bad :: rest).flatten, addressOf into_addr rec = none

variable {into_addr}

theorem addressesOf_records (files : List (File T)) :
    addressesOf into_addr (files.flatMap File.records) = files.flatMap (File.addresses into_addr) :=
  List.filterMap_flatMap

def lostFiles (path : Entry T) : List (File T) := oks (behindError path.steps)

theorem importable_perm (path : Entry T) : (importable into_addr path).Perm
    (addressesOf into_addr (reached path) ++
      (lostFiles path).flatMap (File.addresses into_addr)) := by
  rw [reached, addressesOf_records, lostFiles, ← List.flatMap_append, ← oks_append,
    upToError_append_behind]
  exact (Entry.steps_perm path).symm.flatMap_right _

theorem lostFiles_iff : (∀ before error after, path.steps = before ++ .error error :: after →
      ∀ file, .ok file ∈ after → file.addresses into_addr = []) ↔
    (lostFiles path).flatMap (File.addresses into_addr) = [] := by
  rw [List.flatMap_eq_nil_iff]
  constructor
  · intro h file hfile
    obtain ⟨step, hstep, hok⟩ := List.mem_filterMap.mp hfile
    rcases behindError_spec path.steps with hnil | ⟨before, error, hsplit⟩
    · rw [hnil] at hstep
      cases hstep
    · cases step with
      | error source => cases hok
      | ok file' =>
          obtain rfl := Option.some.inj hok
          exact h before error _ hsplit file' hstep
  · intro h before error after hsplit file hfile
    obtain ⟨more, hmore⟩ := behindError_split before after error
    refine h file (List.mem_filterMap.mpr ⟨.ok file, ?_, rfl⟩)
    rw [hsplit, hmore]
    exact List.mem_append_right more hfile

theorem nothing_left {front back : List T} (hread : reached path = front ++ back)
    (hperm : (addressesOf into_addr front).Perm (importable into_addr path)) :
    addressesOf into_addr back = [] ∧ (lostFiles path).flatMap (File.addresses into_addr) = [] := by
  have hlen := (hperm.trans (importable_perm path)).length_eq
  rw [hread, addressesOf_append, List.length_append, List.length_append] at hlen
  constructor
  · exact List.eq_nil_of_length_eq_zero (by omega)
  · exact List.eq_nil_of_length_eq_zero (by omega)

theorem CoversTree.nothing_left (hcovers : CoversTree into_addr num_cpus path)
    {done back : List (List T)} {outs : List (List (Addr Shape Geometry))}
    (hchunks : Chunks.chunks 1000 (reached path) = done ++ back)
    (hdone : done.map (spawnTask into_addr) = outs.map some)
    (hdriven : Driven num_cpus (chunkTasks into_addr (reached path)) outs.flatten) :
    addressesOf into_addr back.flatten = [] ∧
      (lostFiles path).flatMap (File.addresses into_addr) = [] := by
  have hread : reached path = done.flatten ++ back.flatten := by
    rw [← List.flatten_append, ← hchunks, Chunks.chunks_flatten]
  refine Imports.nothing_left hread ?_
  rw [← flatten_spawned hdone]
  exact hcovers _ (yields_iff.mpr hdriven)

theorem spawned_of_returns {done : List (List T)}
    (h : ∀ rec ∈ done.flatten, into_addr rec ≠ none) :
    ∃ outs : List (List (Addr Shape Geometry)), done.map (spawnTask into_addr) = outs.map some := by
  rcases split_panic (done.map (spawnTask into_addr)) with houts | ⟨outs, rest, hsplit⟩
  · exact houts
  · have hnone : none ∈ done.map (spawnTask into_addr) :=
      hsplit ▸ List.mem_append_right _ List.mem_cons_self
    obtain ⟨chunk, hchunk, htask⟩ := List.mem_map.mp hnone
    obtain ⟨rec, hrec, hpanic⟩ := spawnTask_none.mp htask
    exact absurd hpanic (h rec (List.mem_flatten.mpr ⟨chunk, hchunk, hrec⟩))

theorem returns_of_spawned {done : List (List T)} {outs : List (List (Addr Shape Geometry))}
    (h : done.map (spawnTask into_addr) = outs.map some) :
    ∀ rec ∈ done.flatten, into_addr rec ≠ none := by
  intro rec hrec hpanic
  obtain ⟨chunk, hchunk, hmem⟩ := List.mem_flatten.mp hrec
  have htask : none ∈ outs.map some :=
    h ▸ List.mem_map.mpr ⟨chunk, hchunk, spawnTask_none.mpr ⟨rec, hmem, hpanic⟩⟩
  obtain ⟨_, _, hout⟩ := List.mem_map.mp htask
  cases hout

theorem lost_of_covers (hcovers : CoversTree into_addr num_cpus path) :
    (lostFiles path).flatMap (File.addresses into_addr) = [] := by
  rcases split_panic (chunkTasks into_addr (reached path)) with ⟨outs, htasks⟩ |
    ⟨outs, rest, htasks⟩
  · refine (hcovers.nothing_left (List.append_nil _).symm htasks ?_).2
    rw [htasks]
    exact driven_of_some num_cpus outs
  · obtain ⟨done, back, hchunks, hdone, _⟩ := List.map_eq_append_iff.mp htasks
    refine (hcovers.nothing_left hchunks hdone (.inr ⟨outs, [], rest, ?_, ?_, rfl⟩)).2
    · rw [htasks, List.append_nil]
    · exact Nat.lt_of_lt_of_le Nat.zero_lt_one (Nat.le_max_left 1 num_cpus)

theorem covers_tree_iff (into_addr : IntoAddr T Shape Geometry) (num_cpus : Nat) (path : Entry T) :
    CoversTree into_addr num_cpus path ↔ NothingLost into_addr num_cpus path := by
  constructor
  · intro hcovers
    refine ⟨lostFiles_iff.mpr (lost_of_covers hcovers), ?_⟩
    intro done ahead bad rest hchunks hdone hahead hbad
    obtain ⟨outs, houts⟩ := spawned_of_returns hdone
    have htasks : chunkTasks into_addr (reached path) = outs.map some ++
        ahead.map (spawnTask into_addr) ++ none :: rest.map (spawnTask into_addr) := by
      rw [chunkTasks, hchunks, List.map_append, List.map_append, List.map_cons, houts,
        spawnTask_none.mpr hbad]
    rw [List.append_assoc] at hchunks
    have hleft := (hcovers.nothing_left hchunks houts
      (.inr ⟨outs, _, _, htasks, by rwa [List.length_map], rfl⟩)).1
    exact List.filterMap_eq_nil_iff.mp hleft
  · rintro ⟨hfailure, hpanic⟩ out hout
    have hperm : (importable into_addr path).Perm (addressesOf into_addr (reached path) ++
        (lostFiles path).flatMap (File.addresses into_addr)) := importable_perm path
    rw [lostFiles_iff.mp hfailure, List.append_nil] at hperm
    refine .trans ?_ hperm.symm
    rcases yields_iff.mp hout with ⟨outs, htasks, rfl⟩ | ⟨outs, ahead, rest, htasks, hahead, rfl⟩
    · rw [flatten_spawned htasks, Chunks.chunks_flatten]
    · obtain ⟨front, back, hchunks, hfront, hback⟩ := List.map_eq_append_iff.mp htasks
      obtain ⟨done, flying, rfl, hdone, hflying⟩ := List.map_eq_append_iff.mp hfront
      obtain ⟨bad, behind, rfl, hbad, _⟩ := List.map_eq_cons_iff.mp hback
      have hnone := hpanic done flying bad behind hchunks (returns_of_spawned hdone)
        (by rwa [← hflying, List.length_map] at hahead) (spawnTask_none.mp hbad)
      have hread : reached path = done.flatten ++ (flying ++ bad :: behind).flatten := by
        rw [← List.flatten_append, ← List.append_assoc, ← hchunks, Chunks.chunks_flatten]
      have hleft : addressesOf into_addr (flying ++ bad :: behind).flatten = [] :=
        List.filterMap_eq_nil_iff.mpr hnone
      rw [flatten_spawned hdone, hread, addressesOf_append, hleft, List.append_nil]

def rueHectorMalot : Bano where
  id := "751124535J-20".toList
  house_number := "20".toList
  street := "Rue Hector Malot".toList
  zip := "75012".toList
  city := "Paris".toList
  src := "C+O".toList
  lat := 48
  lon := 2

def streetThenNumber : Labels.Formatter := fun place _ =>
  (place .Road).bind (fun road => (place .HouseNumber).map (fun hn => road ++ " ".toList ++ hn))

def banoIntoAddr (b : Bano) : Option (Except Error (Addr Unit Coordinate)) :=
  b.intoAddr streetThenNumber (fun x => Nat.toDigits 10 x.toUInt64.toNat) Coordinate.mk ∅
    (fun _ => [])

-- The link is the last entry of the directory, so that the walk meets it first.
def danglingLink : Entry Bano :=
  .dir none [.file ⟨bytes "bano-75.csv", .ok [.ok rueHectorMalot]⟩,
    .other false "No such file or directory (os error 2)".toList]

theorem dangling_link_hides_file : ¬CoversTree banoIntoAddr 8 danglingLink := by
  intro hcovers
  have hread : reached danglingLink = [] := rfl
  have hlen : (importable banoIntoAddr danglingLink).length = 1 := rfl
  have hperm := hcovers [] (yields_iff.mpr (by rw [hread]; exact driven_of_some 8 []))
  rw [← hperm.length_eq] at hlen
  cases hlen

end Mimirsbrunn.Imports
