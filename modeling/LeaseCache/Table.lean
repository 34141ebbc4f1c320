/-!
# Finite maps as lists

A table is a finite map kept as a list of entries with at most one entry a
key. The entry that was inserted last stands first, so what is new is found
soon, and proofs about tables are inductions on lists.

The main statements say what each operation does to a lookup
(`find?_insert`, `find?_erase`, `find?_modify`).
-/

set_option autoImplicit false

namespace LeaseCache

universe u v

/-- A finite map: a list of entries in which no key occurs twice. -/
structure Table (κ : Type u) (α : Type v) where
  entries : List (κ × α)
  nodup : (entries.map Prod.fst).Nodup

namespace Table

variable {κ : Type u} {α : Type v} [DecidableEq κ]

/-- The value of the first entry with the given key. -/
def lookup (key : κ) : List (κ × α) → Option α
  | [] => none
  | entry :: rest => if entry.1 = key then some entry.2 else lookup key rest

/-- The map without entries. -/
def empty : Table κ α := ⟨[], by simp⟩

instance : EmptyCollection (Table κ α) := ⟨empty⟩

instance : Inhabited (Table κ α) := ⟨empty⟩

/-- The value stored under a key. -/
def find? (table : Table κ α) (key : κ) : Option α := lookup key table.entries

/-- Whether a key has a value. -/
def contains (table : Table κ α) (key : κ) : Bool := (table.find? key).isSome

/-- The number of entries. -/
def size (table : Table κ α) : Nat := table.entries.length

/-- The stored values, the last inserted first. -/
def values (table : Table κ α) : List α := table.entries.map Prod.snd

/-- Changes the value of the first entry with the given key. -/
def alter (key : κ) (change : α → α) : List (κ × α) → List (κ × α)
  | [] => []
  | entry :: rest =>
      if entry.1 = key then (entry.1, change entry.2) :: rest else entry :: alter key change rest

theorem map_fst_alter (key : κ) (change : α → α) (entries : List (κ × α)) :
    (alter key change entries).map Prod.fst = entries.map Prod.fst := by
  induction entries with
  | nil => rfl
  | cons entry rest ih => by_cases here : entry.1 = key <;> simp [alter, here, ih]

/-- Changes the value under a key, if there is one. -/
def modify (table : Table κ α) (key : κ) (change : α → α) : Table κ α where
  entries := alter key change table.entries
  nodup := by rw [map_fst_alter]; exact table.nodup

/-- Removes the entry of a key, if there is one. -/
def erase (table : Table κ α) (key : κ) : Table κ α where
  entries := table.entries.filter fun entry => entry.1 ≠ key
  nodup := (List.filter_sublist.map Prod.fst).nodup table.nodup

theorem lookup_eq_none_iff (key : κ) (entries : List (κ × α)) :
    lookup key entries = none ↔ key ∉ entries.map Prod.fst := by
  induction entries with
  | nil => simp [lookup]
  | cons entry rest ih =>
      by_cases here : entry.1 = key
      · simp [lookup, here]
      · simp only [lookup, here, if_false, ih, List.map_cons, List.mem_cons]
        exact ⟨fun absent present => present.elim (fun same => here same.symm) absent,
          fun absent present => absent (Or.inr present)⟩

/-- Stores a value under a key: in place of the old value, or in front. -/
def insert (table : Table κ α) (key : κ) (value : α) : Table κ α :=
  if absent : lookup key table.entries = none then
    { entries := (key, value) :: table.entries
      nodup := List.nodup_cons.mpr ⟨(lookup_eq_none_iff _ _).mp absent, table.nodup⟩ }
  else table.modify key fun _ => value

theorem lookup_alter (key other : κ) (change : α → α) (entries : List (κ × α)) :
    lookup other (alter key change entries) =
      if other = key then (lookup other entries).map change else lookup other entries := by
  induction entries with
  | nil => simp [alter, lookup]
  | cons entry rest ih =>
      by_cases here : entry.1 = key <;> by_cases found : entry.1 = other <;>
        by_cases same : other = key <;> simp_all [alter, lookup]

theorem lookup_filter_ne (key other : κ) (entries : List (κ × α)) :
    lookup other (entries.filter fun entry => entry.1 ≠ key) =
      if other = key then none else lookup other entries := by
  induction entries with
  | nil => simp [lookup]
  | cons entry rest ih =>
      by_cases here : entry.1 = key <;> by_cases found : entry.1 = other <;>
        by_cases same : other = key <;> simp_all [lookup]

@[simp] theorem find?_empty (key : κ) : (empty : Table κ α).find? key = none := rfl

/-- Modifying a key changes the lookup of that key only. -/
theorem find?_modify (table : Table κ α) (key other : κ) (change : α → α) :
    (table.modify key change).find? other =
      if other = key then (table.find? other).map change else table.find? other :=
  lookup_alter key other change table.entries

/-- After an insertion the key has the new value and every other key its old one. -/
theorem find?_insert (table : Table κ α) (key other : κ) (value : α) :
    (table.insert key value).find? other =
      if other = key then some value else table.find? other := by
  unfold insert
  split
  next absent =>
    by_cases same : other = key
    · simp [find?, lookup, same]
    · simp [find?, lookup, same, Ne.symm same]
  next present =>
    rw [find?_modify]
    by_cases same : other = key
    · subst same
      cases found : lookup other table.entries with
      | none => exact absurd found present
      | some old => simp [find?, found]
    · simp [same]

theorem find?_insert_self (table : Table κ α) (key : κ) (value : α) :
    (table.insert key value).find? key = some value := by
  rw [find?_insert, if_pos rfl]

theorem find?_insert_of_ne (table : Table κ α) {key other : κ} (different : other ≠ key)
    (value : α) : (table.insert key value).find? other = table.find? other := by
  rw [find?_insert, if_neg different]

/-- What is found after an insertion is the new value or an old one under another key. -/
theorem of_find?_insert {table : Table κ α} {key other : κ} {value found : α}
    (here : (table.insert key value).find? other = some found) :
    other = key ∧ found = value ∨ other ≠ key ∧ table.find? other = some found := by
  rw [find?_insert] at here
  split at here
  next same => exact Or.inl ⟨same, (Option.some.inj here).symm⟩
  next different => exact Or.inr ⟨different, here⟩

/-- After an erasure the key has no value and every other key its old one. -/
theorem find?_erase (table : Table κ α) (key other : κ) :
    (table.erase key).find? other = if other = key then none else table.find? other :=
  lookup_filter_ne key other table.entries

theorem find?_erase_self (table : Table κ α) (key : κ) : (table.erase key).find? key = none := by
  rw [find?_erase, if_pos rfl]

theorem find?_erase_of_ne (table : Table κ α) {key other : κ} (different : other ≠ key) :
    (table.erase key).find? other = table.find? other := by
  rw [find?_erase, if_neg different]

/-- What is found after an erasure was there before, under another key. -/
theorem of_find?_erase {table : Table κ α} {key other : κ} {found : α}
    (here : (table.erase key).find? other = some found) :
    other ≠ key ∧ table.find? other = some found := by
  rw [find?_erase] at here
  split at here
  next => cases here
  next different => exact ⟨different, here⟩

theorem contains_iff (table : Table κ α) (key : κ) :
    table.contains key = true ↔ ∃ value, table.find? key = some value := by
  simp [contains, Option.isSome_iff_exists]

end Table

end LeaseCache
