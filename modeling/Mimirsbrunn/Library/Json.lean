import Mathlib.Data.List.Basic

-- JSON values; `F` is the type of the numbers that are not integers.
inductive Json (F : Type) where
  | null
  | bool (b : Bool)
  | int (n : Int)
  | num (x : F)
  | str (s : List Char)
  | arr (items : List (Json F))
  | obj (fields : List (String × Json F))

namespace Json

variable {F : Type}

def get? : Json F → String → Option (Json F)
  | .obj fields, key => fields.lookup key
  | _, _ => none

def strs (ss : List (List Char)) : Json F := .arr (ss.map .str)

def str? : Json F → Option (List Char)
  | .str s => some s
  | _ => none

@[simp] theorem str?_str (s : List Char) : str? (.str s : Json F) = some s := rfl

def strs? : Json F → Option (List (List Char))
  | .arr items => items.mapM str?
  | _ => none

section Numbers

variable {G : Type}

mutual

def numbers : Json F → List F
  | .num x => [x]
  | .arr items => numbersAll items
  | .obj fields => numbersOf fields
  | .null | .bool _ | .int _ | .str _ => []

def numbersAll : List (Json F) → List F
  | [] => []
  | item :: items => item.numbers ++ numbersAll items

def numbersOf : List (String × Json F) → List F
  | [] => []
  | (_, value) :: fields => value.numbers ++ numbersOf fields

end

mutual

def traverse (f : F → Option G) : Json F → Option (Json G)
  | .null => some .null
  | .bool b => some (.bool b)
  | .int n => some (.int n)
  | .num x => (f x).map .num
  | .str s => some (.str s)
  | .arr items => (traverseAll f items).map .arr
  | .obj fields => (traverseFields f fields).map .obj

def traverseAll (f : F → Option G) : List (Json F) → Option (List (Json G))
  | [] => some []
  | item :: items =>
      (item.traverse f).bind (fun item => (traverseAll f items).map (item :: ·))

def traverseFields (f : F → Option G) : List (String × Json F) → Option (List (String × Json G))
  | [] => some []
  | (name, value) :: fields =>
      (value.traverse f).bind (fun value => (traverseFields f fields).map ((name, value) :: ·))

end

variable {f : F → Option F}

mutual

theorem traverse_self (value : Json F) (h : ∀ x ∈ value.numbers, f x = some x) :
    value.traverse f = some value := by
  cases value with
  | num x => rw [traverse, h x (by simp [numbers]), Option.map_some]
  | arr items => rw [traverse, traverseAll_self items (by rwa [numbers] at h), Option.map_some]
  | obj fields => rw [traverse, traverseFields_self fields (by rwa [numbers] at h), Option.map_some]
  | _ => rfl

theorem traverseAll_self (items : List (Json F)) (h : ∀ x ∈ numbersAll items, f x = some x) :
    traverseAll f items = some items := by
  cases items with
  | nil => rfl
  | cons item items =>
    simp only [numbersAll, List.mem_append] at h
    rw [traverseAll, traverse_self item (fun x hx => h x (.inl hx)), Option.bind_some,
      traverseAll_self items (fun x hx => h x (.inr hx)), Option.map_some]

theorem traverseFields_self (fields : List (String × Json F))
    (h : ∀ x ∈ numbersOf fields, f x = some x) : traverseFields f fields = some fields := by
  cases fields with
  | nil => rfl
  | cons entry fields =>
    simp only [numbersOf, List.mem_append] at h
    rw [traverseFields, traverse_self entry.2 (fun x hx => h x (.inl hx)), Option.bind_some,
      traverseFields_self fields (fun x hx => h x (.inr hx)), Option.map_some]

end

end Numbers

section Records

variable {α β : Type}

def field (fields : List (String × Json F)) (key : String) (read : Json F → Option α) : Option α :=
  (fields.lookup key).bind read

def decodeOr (value : Option (Json F)) (read : Json F → Option α) (default : α) : Option α :=
  match value with
  | some value => read value
  | none => some default

def fieldOr (fields : List (String × Json F)) (key : String) (read : Json F → Option α)
    (default : α) : Option α :=
  decodeOr (fields.lookup key) read default

def optional (read : Json F → Option α) : Json F → Option (Option α)
  | .null => some none
  | value => (read value).map some

def array (read : Json F → Option α) : Json F → Option (List α)
  | .arr items => items.mapM read
  | _ => none

def entry? (field : String × Json F) : Option (List Char × List Char) :=
  field.2.str?.map (field.1.toList, ·)

def entries? : Json F → Option (List (List Char × List Char))
  | .obj fields => fields.mapM entry?
  | _ => none

def ofOption (write : α → Json F) : Option α → Json F
  | some a => write a
  | none => .null

def ofEntry (entry : List Char × List Char) : String × Json F :=
  (String.ofList entry.1, .str entry.2)

def ofEntries (entries : List (List Char × List Char)) : Json F := .obj (entries.map ofEntry)

def given (key : String) (o : Option (Json F)) : List (String × Json F) := o.toList.map (key, ·)

@[simp] theorem lookup_ne {key name : String} {value : Json F} {fields : List (String × Json F)}
    (h : key ≠ name) : ((name, value) :: fields).lookup key = fields.lookup key := by
  rw [List.lookup_cons, beq_eq_false_iff_ne.mpr h]

@[simp] theorem lookup_given_self (key : String) (o : Option (Json F))
    (fields : List (String × Json F)) :
    (given key o ++ fields).lookup key = o.or (fields.lookup key) := by
  cases o with
  | none => rfl
  | some value => exact List.lookup_cons_self

@[simp] theorem lookup_given_ne {key name : String} {o : Option (Json F)}
    {fields : List (String × Json F)} (h : key ≠ name) :
    (given name o ++ fields).lookup key = fields.lookup key := by
  cases o with
  | none => rfl
  | some value => exact lookup_ne h

def untagged (tag : String) (fields : List (String × Json F)) : List (String × Json F) :=
  fields.filter (fun entry => entry.1 ≠ tag)

theorem lookup_untagged {key tag : String} (h : key ≠ tag) (fields : List (String × Json F)) :
    (untagged tag fields).lookup key = fields.lookup key := by
  induction fields with
  | nil => rfl
  | cons entry fields ih =>
    rw [untagged, List.filter_cons]
    split
    case isTrue => rw [List.lookup_cons, List.lookup_cons, ← ih, untagged]
    case isFalse htag =>
      have htag : entry.1 = tag := by simpa using htag
      rw [← untagged, ih, lookup_ne (htag ▸ h)]

theorem field_untagged {key tag : String} (h : key ≠ tag) (fields : List (String × Json F))
    (read : Json F → Option α) : field (untagged tag fields) key read = field fields key read := by
  rw [field, lookup_untagged h, field]

theorem fieldOr_untagged {key tag : String} (h : key ≠ tag) (fields : List (String × Json F))
    (read : Json F → Option α) (default : α) :
    fieldOr (untagged tag fields) key read default = fieldOr fields key read default := by
  rw [fieldOr, lookup_untagged h, fieldOr]

theorem mapM_map_write {γ : Type} {write : α → γ} {read : γ → Option β} {kept : α → β} :
    ∀ {as : List α}, (∀ a ∈ as, read (write a) = some (kept a)) →
      (as.map write).mapM read = some (as.map kept)
  | [], _ => rfl
  | a :: as, h => by
    rw [List.map_cons, List.mapM_cons, h a List.mem_cons_self,
      mapM_map_write (fun a' ha' => h a' (List.mem_cons_of_mem a ha'))]
    rfl

theorem array_arr {write : α → Json F} {read : Json F → Option β} {kept : α → β} {as : List α}
    (h : ∀ a ∈ as, read (write a) = some (kept a)) :
    array read (.arr (as.map write)) = some (as.map kept) :=
  mapM_map_write h

@[simp] theorem decodeOr_some (value : Json F) (read : Json F → Option α) (default : α) :
    decodeOr (some value) read default = read value := rfl

@[simp] theorem decodeOr_none (read : Json F → Option α) (default : α) :
    decodeOr none read default = some default := rfl

theorem str_ne_null (s : List Char) : (.str s : Json F) ≠ .null := by
  intro h
  cases h

theorem arr_ne_null (items : List (Json F)) : (.arr items : Json F) ≠ .null := by
  intro h
  cases h

theorem obj_ne_null (fields : List (String × Json F)) : (.obj fields : Json F) ≠ .null := by
  intro h
  cases h

theorem decodeOr_map {write : α → Json F} {read : Json F → Option (Option β)} {kept : α → β}
    {o : Option α} (h : ∀ a ∈ o, read (write a) = some (some (kept a))) :
    decodeOr (o.map write) read none = some (o.map kept) := by
  cases o with
  | none => rfl
  | some a => exact h a rfl

theorem optional_of_read {read : Json F → Option β} {value : Json F} {b : β}
    (hread : read value = some b) (hnull : value ≠ .null) :
    optional read value = some (some b) := by
  rw [optional, hread, Option.map_some]
  exact hnull

theorem optional_ofOption {write : α → Json F} {read : Json F → Option β} {kept : α → β}
    {o : Option α} (hread : ∀ a ∈ o, read (write a) = some (kept a))
    (hnull : ∀ a ∈ o, write a ≠ .null) :
    optional read (ofOption write o) = some (o.map kept) := by
  cases o with
  | none => rfl
  | some a => exact optional_of_read (hread a rfl) (hnull a rfl)

@[simp] theorem strs?_strs (ss : List (List Char)) : (strs ss : Json F).strs? = some ss := by
  have read : ∀ s ∈ ss, str? (.str s : Json F) = some s := fun _ _ => rfl
  rw [strs, strs?, mapM_map_write read, List.map_id']

theorem entry?_ofEntry (entry : List Char × List Char) :
    entry? (ofEntry entry : String × Json F) = some entry := by
  rw [ofEntry, entry?, String.toList_ofList]
  rfl

theorem entries?_ofEntries (entries : List (List Char × List Char)) :
    (ofEntries entries : Json F).entries? = some entries := by
  rw [ofEntries, entries?, mapM_map_write (fun entry _ => entry?_ofEntry entry), List.map_id']

end Records

section Trees

variable {α : Type} (key : String)
  (build : List (String × Json F) → Option (Option (List α)) → Option α)

-- Decoding of a record whose field `key` holds a list of records of its own kind; `build` is
-- told whether that field is there and what was read of it.
mutual

def tree : Json F → Option α
  | .obj fields => build fields (treeField fields)
  | _ => none

def treeField : List (String × Json F) → Option (Option (List α))
  | [] => none
  | (name, value) :: fields => if key == name then some (treeValue value) else treeField fields

def treeValue : Json F → Option (List α)
  | .arr items => treeItems items
  | _ => none

def treeItems : List (Json F) → Option (List α)
  | [] => some []
  | item :: items => (tree item).bind (fun a => (treeItems items).map (a :: ·))

end

theorem treeItems_eq (items : List (Json F)) :
    treeItems key build items = items.mapM (tree key build) := by
  induction items with
  | nil => rfl
  | cons item items ih =>
    rw [treeItems, ih, List.mapM_cons]
    cases tree key build item <;> cases items.mapM (tree key build) <;> rfl

theorem treeValue_eq (value : Json F) : treeValue key build value = array (tree key build) value := by
  cases value with
  | arr items => exact treeItems_eq key build items
  | _ => rfl

theorem treeField_eq (fields : List (String × Json F)) :
    treeField key build fields = (fields.lookup key).map (array (tree key build)) := by
  induction fields with
  | nil => rfl
  | cons entry fields ih =>
    rw [treeField, List.lookup_cons, ih, treeValue_eq]
    cases key == entry.1 <;> rfl

theorem tree_obj (fields : List (String × Json F)) :
    tree key build (.obj fields) =
      build fields ((fields.lookup key).map (array (tree key build))) := by
  rw [tree, treeField_eq]

end Trees

end Json
