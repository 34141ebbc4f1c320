import LeaseCache.Table
import Mathlib.Data.List.Perm.Basic

/-!
# The values of a table

A table is looked up by key, but what it stores is also counted and summed, and
then only the multiset of its values matters. The values of a table with an
entry are, up to order, the value of that entry and the values of the table
without it (`values_perm`). Inserting and modifying are stated against the same
remainder, so a count before and a count after can be compared at once
(`values_insert_perm`, `values_modify_perm`).
-/

set_option autoImplicit false

namespace LeaseCache

namespace Table

universe u v

variable {κ : Type u} {α : Type v} [DecidableEq κ]

theorem mem_of_lookup {key : κ} {value : α} {entries : List (κ × α)}
    (found : lookup key entries = some value) : (key, value) ∈ entries := by
  induction entries with
  | nil => simp [lookup] at found
  | cons entry rest ih =>
      by_cases here : entry.1 = key
      · rw [lookup, if_pos here] at found
        obtain rfl := Option.some.inj found
        rw [← here]
        exact List.mem_cons_self
      · rw [lookup, if_neg here] at found
        exact List.mem_cons_of_mem _ (ih found)

theorem lookup_of_mem {key : κ} {value : α} {entries : List (κ × α)}
    (nodup : (entries.map Prod.fst).Nodup) (member : (key, value) ∈ entries) :
    lookup key entries = some value := by
  induction entries with
  | nil => simp at member
  | cons entry rest ih =>
      rw [List.map_cons, List.nodup_cons] at nodup
      rcases List.mem_cons.mp member with rfl | later
      · rw [lookup, if_pos rfl]
      · have other : entry.1 ≠ key := by
          intro same
          exact nodup.1 (same ▸ List.mem_map_of_mem later)
        rw [lookup, if_neg other]
        exact ih nodup.2 later

/-- A value is stored exactly when some key leads to it. -/
theorem mem_values_iff {table : Table κ α} {value : α} :
    value ∈ table.values ↔ ∃ key, table.find? key = some value := by
  constructor
  · intro member
    obtain ⟨⟨key, _⟩, stored, rfl⟩ := List.mem_map.mp member
    exact ⟨key, lookup_of_mem table.nodup stored⟩
  · rintro ⟨key, found⟩
    exact List.mem_map.mpr ⟨_, mem_of_lookup found, rfl⟩

theorem mem_values_of_find? {table : Table κ α} {key : κ} {value : α}
    (found : table.find? key = some value) : value ∈ table.values :=
  mem_values_iff.mpr ⟨key, found⟩

theorem mem_of_mem_insert {table : Table κ α} {key : κ} {value other : α}
    (member : other ∈ (table.insert key value).values) : other = value ∨ other ∈ table.values := by
  obtain ⟨name, found⟩ := mem_values_iff.mp member
  exact (of_find?_insert found).imp And.right fun old => mem_values_of_find? old.2

theorem mem_of_mem_erase {table : Table κ α} {key : κ} {value : α}
    (member : value ∈ (table.erase key).values) : value ∈ table.values := by
  obtain ⟨name, found⟩ := mem_values_iff.mp member
  exact mem_values_of_find? (of_find?_erase found).2

/-- After a modification a value is an old one, changed or not. -/
theorem mem_of_mem_modify {table : Table κ α} {key : κ} {change : α → α} {value : α}
    (member : value ∈ (table.modify key change).values) :
    ∃ old ∈ table.values, value = old ∨ value = change old := by
  obtain ⟨name, found⟩ := mem_values_iff.mp member
  rw [find?_modify] at found
  split at found
  · obtain ⟨old, before, rfl⟩ := Option.map_eq_some_iff.mp found
    exact ⟨old, mem_values_of_find? before, Or.inr rfl⟩
  · exact ⟨value, mem_values_of_find? found, Or.inl rfl⟩

omit [DecidableEq κ] in
theorem eq_of_entries {table other : Table κ α} (same : table.entries = other.entries) :
    table = other := by
  obtain ⟨entries, nodup⟩ := table
  obtain ⟨others, also⟩ := other
  exact (mk.injEq ..).mpr same

theorem entries_erase (table : Table κ α) (key : κ) :
    (table.erase key).entries = table.entries.filter fun entry => entry.1 ≠ key := rfl

theorem filter_ne_of_notMem {key : κ} {entries : List (κ × α)}
    (absent : key ∉ entries.map Prod.fst) :
    entries.filter (fun entry => entry.1 ≠ key) = entries := by
  refine List.filter_eq_self.mpr fun entry member => decide_eq_true fun same => ?_
  exact absent (List.mem_map.mpr ⟨entry, member, same⟩)

/-- Without an entry for the key there is nothing to erase. -/
theorem erase_of_absent {table : Table κ α} {key : κ} (absent : table.find? key = none) :
    table.erase key = table :=
  eq_of_entries (filter_ne_of_notMem ((lookup_eq_none_iff key table.entries).mp absent))

/-- Erasing some keys leaves the entries of the others. -/
theorem entries_foldl_erase (table : Table κ α) (keys : List κ) :
    (keys.foldl erase table).entries = table.entries.filter fun entry => entry.1 ∉ keys := by
  induction keys generalizing table with
  | nil => exact (List.filter_eq_self.mpr fun entry _ => by simp).symm
  | cons key rest ih =>
      rw [List.foldl_cons, ih, entries_erase, List.filter_filter]
      refine List.filter_congr fun entry _ => ?_
      rw [← Bool.decide_and]
      exact decide_eq_decide.mpr (by rw [List.mem_cons, not_or, and_comm])

theorem find?_foldl_erase (table : Table κ α) (keys : List κ) (key : κ) :
    (keys.foldl erase table).find? key = if key ∈ keys then none else table.find? key := by
  induction keys generalizing table with
  | nil => rfl
  | cons first rest ih =>
      rw [List.foldl_cons, ih, find?_erase]
      by_cases here : key = first
      · simp [here]
      · simp [here]

/-- Changing the entry of a key gives, up to order, the changed entry and the others. -/
theorem alter_perm {key : κ} {value : α} (change : α → α) {entries : List (κ × α)}
    (nodup : (entries.map Prod.fst).Nodup) (found : lookup key entries = some value) :
    (alter key change entries).Perm
      ((key, change value) :: entries.filter fun entry => entry.1 ≠ key) := by
  induction entries with
  | nil => simp [lookup] at found
  | cons entry rest ih =>
      obtain ⟨name, stored⟩ := entry
      rw [List.map_cons, List.nodup_cons] at nodup
      by_cases here : name = key
      · subst here
        rw [lookup, if_pos rfl] at found
        obtain rfl := Option.some.inj found
        rw [alter, if_pos rfl, List.filter_cons_of_neg (by simp), filter_ne_of_notMem nodup.1]
      · rw [lookup, if_neg here] at found
        rw [alter, if_neg here, List.filter_cons_of_pos (by simpa using here)]
        exact ((ih nodup.2 found).cons _).trans (List.Perm.swap _ _ _)

theorem alter_id (key : κ) (entries : List (κ × α)) : alter key id entries = entries := by
  induction entries with
  | nil => rfl
  | cons entry rest ih =>
      by_cases here : entry.1 = key
      · rw [alter, if_pos here]
        rfl
      · rw [alter, if_neg here, ih]

/-- The values of a table are the value of an entry and the values without it. -/
theorem values_perm {table : Table κ α} {key : κ} {value : α}
    (found : table.find? key = some value) :
    table.values.Perm (value :: (table.erase key).values) := by
  have whole := (alter_perm id table.nodup found).map Prod.snd
  rwa [alter_id] at whole

/-- A modification changes one value. -/
theorem values_modify_perm {table : Table κ α} {key : κ} {value : α} (change : α → α)
    (found : table.find? key = some value) :
    (table.modify key change).values.Perm (change value :: (table.erase key).values) :=
  (alter_perm change table.nodup found).map Prod.snd

/-- An insertion puts the new value in place of the old one, if there was one. -/
theorem values_insert_perm (table : Table κ α) (key : κ) (value : α) :
    (table.insert key value).values.Perm (value :: (table.erase key).values) := by
  cases found : table.find? key with
  | none =>
      have absent : lookup key table.entries = none := found
      rw [erase_of_absent found, insert, dif_pos absent]
      exact List.Perm.refl _
  | some old =>
      have present : lookup key table.entries ≠ none := by
        have : lookup key table.entries = some old := found
        simp [this]
      rw [insert, dif_neg present]
      exact values_modify_perm (fun _ => value) found

theorem alter_alter (key : κ) (first second : α → α) (entries : List (κ × α)) :
    alter key second (alter key first entries) = alter key (second ∘ first) entries := by
  induction entries with
  | nil => rfl
  | cons entry rest ih =>
      by_cases here : entry.1 = key
      · simp [alter, here]
      · simp [alter, here, ih]

/-- Of two values stored under one key the second stays. -/
theorem insert_insert (table : Table κ α) (key : κ) (old value : α) :
    (table.insert key old).insert key value = table.insert key value := by
  have present : lookup key (table.insert key old).entries = some old :=
    find?_insert_self table key old
  have again : (table.insert key old).insert key value =
      (table.insert key old).modify key fun _ => value := by
    conv_lhs => rw [insert, dif_neg (by simp [present])]
  rw [again]
  by_cases absent : lookup key table.entries = none
  · rw [insert, dif_pos absent, insert, dif_pos absent]
    simp [modify, alter]
  · rw [insert, dif_neg absent, insert, dif_neg absent]
    simp only [modify, alter_alter]
    rfl

/-- Erasing an entry makes a table shorter by one. -/
theorem size_erase_of_found {table : Table κ α} {key : κ} {value : α}
    (found : table.find? key = some value) : (table.erase key).size + 1 = table.size := by
  have shorter := (values_perm found).length_eq
  simpa [values, size] using shorter.symm

omit [DecidableEq κ] in
theorem size_eq_length_keys (table : Table κ α) :
    table.size = (table.entries.map Prod.fst).length := by
  rw [size, List.length_map]

theorem size_modify (table : Table κ α) (key : κ) (change : α → α) :
    (table.modify key change).size = table.size := by
  rw [size_eq_length_keys, size_eq_length_keys]
  exact congrArg List.length (map_fst_alter key change table.entries)

/-- An insertion makes the other entries one more. -/
theorem size_insert (table : Table κ α) (key : κ) (value : α) :
    (table.insert key value).size = (table.erase key).size + 1 := by
  have longer := (values_insert_perm table key value).length_eq
  simpa [values, size] using longer

/-- Storing a value under a new key makes a table longer by one. -/
theorem size_insert_of_absent {table : Table κ α} {key : κ} (absent : table.find? key = none)
    (value : α) : (table.insert key value).size = table.size + 1 := by
  rw [size_insert, erase_of_absent absent]

/-- Storing a value in place of an old one leaves a table as long as it was. -/
theorem size_insert_of_found {table : Table κ α} {key : κ} {old : α}
    (found : table.find? key = some old) (value : α) :
    (table.insert key value).size = table.size := by
  rw [size_insert, size_erase_of_found found]

end Table

end LeaseCache
