import Mimirsbrunn.Bragi.Consistency
import Mimirsbrunn.Places.Bano
import Mimirsbrunn.Publication.Listings

namespace Mimirsbrunn.Imports
open Regex Std Internal Places

variable {Shape Geometry Color : Type}

def adminsAlias : Text := rootDoctype PlaceDocType.Admin.asStr

-- How the importers get the administrative regions: without an index there are none, and one that
-- cannot be read stops the import. Nothing is told where the pages asked for are used up.
def fetchAdmins {A : Type} (debug : Internal.Error → Text) (config : ElasticsearchStorageConfig)
    (pulls : Nat) : Client PitRequest (PitResponse A) (Option (Except Text (List A))) :=
  (listDocuments config adminsAlias pulls).bind fun
    | .ok (admins, .finished) => .done (some (.ok admins))
    | .ok (_, .failed (.err e)) =>
        .done (some (.error ("could not parse admin: ".toList ++ debug e)))
    | .ok (_, .failed (.panicked m)) => .done (some (.error m))
    | .ok (_, .unpolled) => .done none
    | .error (.err _) => .done (some (.ok []))
    | .error (.panicked m) => .done (some (.error m))

def readAdmin (crates : Crates Shape Geometry Color) (place : Place Shape Geometry Color) :
    Option (Places.Admin Shape Geometry) :=
  Places.Admin.decode crates (place.received crates)

theorem readAdmin_of_survives {crates : Crates Shape Geometry Color} (hcrates : crates.ReadBack)
    {admin : Places.Admin Shape Geometry} (hfinite : admin.Finite crates)
    (hsurvives : crates.Survives (admin.encode crates)) :
    readAdmin crates (.Admin admin) = some admin.stored := by
  have htext : (Place.Admin admin : Place Shape Geometry Color).received crates =
      admin.encode crates := Place.received_of_survives hsurvives
  rw [readAdmin, htext]
  exact admin.decode_encode hcrates hfinite

inductive Fetched {A : Type} (told : List A → Prop) (few : Prop) :
    Option (Except Text (List A)) → Prop
  | admins {l : List A} : told l → Fetched told few (some (.ok l))
  | notFound : Fetched told few (some (.ok []))
  | panicked (m : Text) : Fetched told few (some (.error m))
  | unpolled : few → Fetched told few none

theorem Fetched.mono {A : Type} {told told' : List A → Prop} {few few' : Prop}
    {result : Option (Except Text (List A))} (h : Fetched told few result)
    (htold : ∀ l, told l → told' l) (hfew : few → few') : Fetched told' few' result := by
  cases h with
  | admins h => exact .admins (htold _ h)
  | notFound => exact .notFound
  | panicked m => exact .panicked m
  | unpolled h => exact .unpolled (hfew h)

section Session

variable {A α D : Type} {read : D → Option A} {P : Store D × α → Prop}
  {moves : Store D × α → Store D × α → Prop} {config : ElasticsearchStorageConfig}
  {debug : Internal.Error → Text} {pulls : Nat}

def ListedIn (read : D → Option A) (s : Store D) (admins : List A) : Prop :=
  ∃ docs : List D, docs.Perm ((s.listed adminsAlias).map Prod.snd) ∧
    admins.map some = docs.map read

inductive Heard {A : Type} (told : List A → Prop) (few : Prop) :
    Except (Failure Internal.Error) (List A × Ending) → Prop
  | refused (e : Failure Internal.Error) : Heard told few (.error e)
  | broken (l : List A) (e : Failure Internal.Error) : Heard told few (.ok (l, .failed e))
  | unpolled (l : List A) : few → Heard told few (.ok (l, .unpolled))
  | admins {l : List A} : told l → Heard told few (.ok (l, .finished))

theorem session_heard (hsize : 0 < config.scroll_chunk_size) {t : Option (Snapshot D)}
    {result : Except (Failure Internal.Error) (List A × Ending)}
    (h : (listing moves read).Session P (none, listDocuments config adminsAlias pulls)
      (t, .done result)) :
    Heard (fun admins => ∃ s c, P (s, c) ∧ ListedIn read s admins)
      (∃ s c, P (s, c) ∧ pulls < (s.listed adminsAlias).length + 2) result := by
  rcases session_listDocuments hsize h with ⟨e, rfl⟩ | ⟨s, c, snapshot, r, hs, hperm, rfl, hl⟩
  · exact .refused e
  · obtain ⟨docs, ending⟩ := r
    obtain ⟨⟨k, htold, hfinished⟩, hpolled⟩ := hl
    cases ending with
    | failed e => exact .broken docs e
    | finished =>
      refine .admins ⟨s, c, hs, snapshot.descending.map Prod.snd,
        (snapshot.descending_perm.map Prod.snd).trans hperm, ?_⟩
      rw [List.take_of_length_le (hfinished rfl)] at htold
      simpa [Function.comp_def] using htold
    | unpolled =>
      refine .unpolled docs ⟨s, c, hs, ?_⟩
      have hlength := ((snapshot.descending_perm.map Prod.snd).trans hperm).length_eq
      rw [List.length_map, List.length_map] at hlength
      exact hlength ▸ hpolled rfl

theorem session_fetchAdmins (hsize : 0 < config.scroll_chunk_size) {t : Option (Snapshot D)}
    {result : Option (Except Text (List A))}
    (h : (listing moves read).Session P (none, fetchAdmins debug config pulls)
      (t, .done result)) :
    Fetched (fun admins => ∃ s c, P (s, c) ∧ ListedIn read s admins)
      (∃ s c, P (s, c) ∧ pulls < (s.listed adminsAlias).length + 2) result := by
  obtain ⟨u, listed, hlist, hdone⟩ := Watching.session_bind h
  cases session_heard hsize hlist with
  | refused e =>
    cases e with
    | err e =>
      obtain ⟨_, rfl⟩ := Watching.session_done hdone
      exact .notFound
    | panicked m =>
      obtain ⟨_, rfl⟩ := Watching.session_done hdone
      exact .panicked m
  | broken l e => cases e <;> obtain ⟨_, rfl⟩ := Watching.session_done hdone <;> exact .panicked _
  | unpolled l hfew =>
    obtain ⟨_, rfl⟩ := Watching.session_done hdone
    exact .unpolled hfew
  | admins htold =>
    obtain ⟨_, rfl⟩ := Watching.session_done hdone
    exact .admins htold

end Session

variable {crates : Crates Shape Geometry Color} {E : Engine (Place Shape Geometry Color)}
  {i : ImportOf Shape Geometry Color} {s₀ s : PlaceStore Shape Geometry Color} {dataset : Text}
  {config : ElasticsearchStorageConfig} {debug : Internal.Error → Text} {pulls : Nat}
  {t : Option (Snapshot (Place Shape Geometry Color))}
  {result : Option (Except Text (List (Places.Admin Shape Geometry)))}

theorem ofTypes_admins : OfTypes (fun _ => none) [adminsAlias] := by
  intro a ha
  obtain rfl := List.mem_singleton.mp ha
  exact ⟨.Admin, List.mem_singleton_self _⟩

theorem admins_one_version (hd : Piece dataset)
    (hi : i.PublicFor PlaceDocType.Admin.asStr dataset)
    (hquiet : ∀ a m, s₀.Aliased a m → MadeFor PlaceDocType.Admin.asStr dataset m →
      a ∈ aliases PlaceDocType.Admin.asStr dataset)
    {c : Es (Place Shape Geometry Color) ModelError Index}
    (h : (elasticsearch E).Reach (s₀, i.run) (s, c)) :
    OneVersion PlaceDocType.Admin.asStr dataset i s₀ s [adminsAlias] := by
  have ht : Piece PlaceDocType.Admin.asStr := by decide
  have hnamed : ∀ a ∈ [adminsAlias], ¬ MadeFor PlaceDocType.Admin.asStr dataset a :=
    not_madeFor_of_types ht ofTypes_admins (fun _ _ h => by cases h)
  have hreads := readsOneAlias_of_types ht ofTypes_admins hnamed hquiet
  exact (reach_oneVersion (Q := fun _ _ => True) ht hd hi hreads (fun _ _ => trivial)
    (fun _ _ _ _ _ _ _ => trivial) h).1

def lille : Places.Admin Unit PlainGeometry :=
  { Places.Admin.default with
    id := "admin:fr:59350".toList
    name := "Lille".toList
    boundary := some ()
    zone_type := some .City }

theorem lille_finite : lille.Finite plainCrates := by
  rw [lille, Places.Admin.default, Places.Admin.Finite]
  refine ⟨by decide +kernel, by constructor <;> decide +kernel, ?_, trivial, ?_, ?_⟩
  · intro boundary _ x hx
    rcases List.mem_cons.mp hx with rfl | hx
    · decide +kernel
    · obtain rfl := List.mem_singleton.mp hx
      decide +kernel
  · rintro _ ⟨⟩
  · rintro _ ⟨⟩

theorem lille_survives : plainCrates.Survives (lille.encode plainCrates) := by
  rw [Crates.Survives]
  decide +kernel

def lilleImport : ImportOf Unit PlainGeometry Text :=
  .plain "admin".toList "fr".toList (.utc 2021 5 4 0 0 0 0) [.Admin lille]

theorem lilleImport_for : lilleImport.PublicFor PlaceDocType.Admin.asStr "fr".toList :=
  ⟨rfl, rfl, rfl⟩

def onePage : ElasticsearchStorageConfig := ⟨8, "1m".toList, 8, 100, ⟨false, 1⟩⟩

def lilleSnapshot : Snapshot (Place Unit PlainGeometry Text) := ⟨[(0, .Admin lille)], by simp⟩

theorem readAdmin_lille :
    readAdmin plainCrates (Place.Admin lille : Place Unit PlainGeometry Text) = some lille.stored :=
  readAdmin_of_survives plainCrates_readBack lille_finite lille_survives

theorem lille_listed {α β : Type} {s : PlaceStore Unit PlainGeometry Text} {c : α}
    {moves : PlaceStore Unit PlainGeometry Text × α → PlaceStore Unit PlainGeometry Text × α → Prop}
    (hlisted : [Place.Admin lille].Perm ((s.listed adminsAlias).map Prod.snd))
    (f : Except (Failure Internal.Error) (List (Places.Admin Unit PlainGeometry) × Ending) →
      Client PitRequest (PitResponse (Places.Admin Unit PlainGeometry)) β) :
    (listing moves (readAdmin plainCrates)).Run
      ((s, c), none, (listDocuments onePage adminsAlias 3).bind f)
      ((s, c), some lilleSnapshot, f (.ok ([lille.stored], .finished))) := by
  have hopen : s.Pages (readAdmin plainCrates) none (.openPointInTime adminsAlias "1m".toList)
      (.opened "1".toList) (some lilleSnapshot) := .opened lilleSnapshot hlisted
  have hfirst : s.Pages (readAdmin plainCrates) (some lilleSnapshot)
      (.search (Internal.buildQuery onePage "1".toList none))
      (.page ⟨some "1".toList, [⟨lille.stored, [.u64 0]⟩]⟩) (some lilleSnapshot) := by
    refine .page _ ?_
    simp [Snapshot.search, Internal.buildQuery, Snapshot.below, Snapshot.descending, lilleSnapshot,
      readHit, Snapshot.hit, readAdmin_lille, onePage]
  have hlast : s.Pages (readAdmin plainCrates) (some lilleSnapshot)
      (.search (Internal.buildQuery onePage "1".toList (some 0)))
      (.page ⟨some "1".toList, []⟩) (some lilleSnapshot) := by
    refine .page _ ?_
    simp [Snapshot.search, Internal.buildQuery, Snapshot.below, Snapshot.descending, lilleSnapshot]
  have hclose : s.Pages (readAdmin plainCrates) (some lilleSnapshot) (.closePointInTime "1".toList)
      .closed (some lilleSnapshot) := .closed
  exact .head (.call hopen) (.head (.call hfirst) (.head (.call hlast) (.head (.call hclose) .refl)))

theorem lille_fetched {α : Type} {s : PlaceStore Unit PlainGeometry Text} {c : α}
    {moves : PlaceStore Unit PlainGeometry Text × α → PlaceStore Unit PlainGeometry Text × α → Prop}
    (hlisted : [Place.Admin lille].Perm ((s.listed adminsAlias).map Prod.snd)) :
    (listing moves (readAdmin plainCrates)).Run
      ((s, c), none, fetchAdmins Internal.Error.display onePage 3)
      ((s, c), some lilleSnapshot, .done (some (.ok [lille.stored]))) := lille_listed hlisted _

theorem lille_imported : ∃ s index,
    (elasticsearch (.permissive _)).Reach (⟨∅, []⟩, lilleImport.run) (s, .done (.ok index)) ∧
    [Place.Admin lille].Perm ((s.listed adminsAlias).map Prod.snd) := by
  have hsmooth : Smooth (.permissive _) lilleImport :=
    Import.plain_smooth (by decide) (by decide) _ (by simp)
  have hfresh : lilleImport.indexName ∉
    (⟨∅, []⟩ : PlaceStore Unit PlainGeometry Text).indices := by simp
  obtain ⟨s, index, himport⟩ := Phase.import_completes hsmooth hfresh
  obtain ⟨hsingle, docs, hcontent, hholds⟩ := import_single (by decide) (by decide)
    lilleImport_for (show adminsAlias ∈ _ by decide) (by simp)
    (fun m h => absurd h (not_aliased_empty _ m)) himport
  have hperm := (hsingle.listed_perm hcontent).map Prod.snd
  rw [List.map_map] at hperm
  exact ⟨s, index, himport, (hperm.trans (hholds.perm (by decide))).symm⟩

end Mimirsbrunn.Imports
