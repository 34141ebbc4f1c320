import LeaseCache.Json.Record
import LeaseCache.Proofs.Json.RoundTrip

/-!
# The fields of an object

An object whose members have distinct names among those of a record is read with exactly its
members as the fields of the record, in whatever order they stand and whichever are missing
(`fields?_of_eq_ofMembers`). So what is written as an object under the names of a record is read
back field by field.
-/

set_option autoImplicit false

namespace LeaseCache

namespace Json

variable {names : List String} {members : List (String × Json)} {fields : Fields} {name : String}

/-- Members of new and distinct names are added to the fields. -/
theorem fieldsOfMembers_eq_some (known : ∀ member ∈ members, member.1 ∈ names)
    (distinct : (members.map Prod.fst).Nodup)
    (fresh : ∀ member ∈ members, fields.find? member.1 = none) :
    ∃ read, fieldsOfMembers names
        (members.map fun (name, value) => (contentOfText name, value)) fields = some read ∧
      ∀ name, read.find? name = (Table.lookup name members).or (fields.find? name) := by
  induction members generalizing fields with
  | nil => exact ⟨fields, rfl, fun name => rfl⟩
  | cons member rest ih =>
      obtain ⟨name, value⟩ := member
      obtain ⟨other, later⟩ := List.nodup_cons.mp distinct
      have listed : names.contains name = true :=
        List.contains_iff_mem.mpr (known (name, value) List.mem_cons_self)
      have absent : fields.contains name = false := by
        rw [Table.contains, fresh (name, value) List.mem_cons_self, Option.isSome_none]
      have still : ∀ member ∈ rest, (fields.insert name value).find? member.1 = none := by
        intro member inside
        rw [Table.find?_insert_of_ne, fresh member (List.mem_cons_of_mem _ inside)]
        rintro rfl
        exact other (List.mem_map.mpr ⟨member, inside, rfl⟩)
      obtain ⟨read, same, found⟩ :=
        ih (fun member inside => known member (List.mem_cons_of_mem _ inside)) later still
      refine ⟨read, ?_, fun wanted => ?_⟩
      · rw [List.map_cons, fieldsOfMembers, textOfContent?_contentOfText]
        simp only [listed, absent, Bool.not_true, Bool.false_eq_true, if_false]
        exact same
      · rw [found, Table.lookup, Table.find?_insert]
        by_cases here : wanted = name
        · subst here
          have none := (Table.lookup_eq_none_iff wanted rest).mpr other
          rw [none, if_pos rfl, if_pos rfl]
          rfl
        · rw [if_neg here, if_neg (Ne.symm here)]

/-- **The members of an object are the fields of the record**, in any order. -/
theorem fields?_of_eq_ofMembers (names : List String) {value : Json}
    (same : value = ofMembers members) (known : ∀ member ∈ members, member.1 ∈ names)
    (distinct : (members.map Prod.fst).Nodup) :
    ∃ fields, value.fields? names = some fields ∧
      ∀ name, fields.find? name = Table.lookup name members := by
  have none : ∀ member ∈ members, (Table.empty : Fields).find? member.1 = none :=
    fun member _ => Table.find?_empty member.1
  obtain ⟨fields, read, found⟩ := fieldsOfMembers_eq_some known distinct none
  refine ⟨fields, same ▸ read, fun name => ?_⟩
  rw [found, Table.find?_empty, Option.or_none]

/-- An object of plain values under names is plain. -/
theorem plain_ofMembers (each : ∀ member ∈ members, member.2.Plain) :
    (ofMembers members).Plain := by
  refine .object (fun member listed => ?_) fun member listed => ?_
  · obtain ⟨member, -, rfl⟩ := List.mem_map.mp listed
    exact ⟨member.1, rfl⟩
  · obtain ⟨member, inside, rfl⟩ := List.mem_map.mp listed
    exact each member inside

end Json

end LeaseCache
