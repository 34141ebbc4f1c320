import LeaseCache.Proofs.Json.Fields
import LeaseCache.Proofs.Table
import Mathlib.Data.List.Nodup

/-!
# Values of which something is left out

A value is abridged by leaving members of its objects out, on any level, and by writing the
members that are left in any order (`Abridges`). What is still there is known by its path of
names (`holds`).

An object under the names of a record is abridged to an object under some of these names
(`Abridges.exists_ofMembers`). So it is read as the record with some of its fields
(`Abridges.fields?`), and a field that has a default value is read as what the path through the
field still holds, or as its default value if the field was left out (`Given.withDefault`).
-/

set_option autoImplicit false

namespace LeaseCache.Json

/-- The ways of leaving members out: what is left of an object has each name at most once, and
under each of its names stands what is left of the member of that name. -/
inductive Abridges : Json → Json → Prop where
  | whole (value : Json) : Abridges value value
  | object {members kept : List (List UInt8 × Json)} (origin : List UInt8 → Json)
      (distinct : (kept.map Prod.fst).Nodup)
      (listed : ∀ member ∈ kept, (member.1, origin member.1) ∈ members)
      (each : ∀ member ∈ kept, Abridges (origin member.1) member.2) :
      Abridges (.object members) (.object kept)

/-- Whether a value stands at the end of a path of names. -/
def holds : Json → List String → Bool
  | _, [] => true
  | .object members, name :: path =>
      match Table.lookup (contentOfText name) members with
      | some value => value.holds path
      | none => false
  | _, _ :: _ => false

variable {value part : Json} {name : String} {full kept : List (String × Json)}

/-! ## Names -/

theorem contentOfText_injective : Function.Injective contentOfText := fun first second same =>
  Option.some.inj <| (textOfContent?_contentOfText first).symm.trans <|
    (congrArg textOfContent? same).trans (textOfContent?_contentOfText second)

/-- Members whose names are names of texts are the members of an object under names. -/
theorem exists_map_contentOfText {members : List (List UInt8 × Json)}
    (named : ∀ member ∈ members, ∃ name, member.1 = contentOfText name) :
    ∃ under : List (String × Json),
      members = under.map fun (name, value) => (contentOfText name, value) := by
  induction members with
  | nil => exact ⟨[], rfl⟩
  | cons member rest ih =>
      obtain ⟨⟨name, first⟩, later⟩ := List.forall_mem_cons.mp named
      obtain ⟨under, rfl⟩ := ih later
      exact ⟨(name, member.2) :: under, congrArg (· :: _) (Prod.ext first rfl)⟩

theorem lookup_contentOfText (name : String) (members : List (String × Json)) :
    Table.lookup (contentOfText name)
      (members.map fun (name, value) => (contentOfText name, value)) =
        Table.lookup name members := by
  induction members with
  | nil => rfl
  | cons member rest ih =>
      simp only [List.map_cons, Table.lookup, ih, contentOfText_injective.eq_iff]

/-- Distinct names have distinct contents. -/
theorem nodup_contentOfText_iff {members : List (String × Json)} :
    ((members.map fun (name, value) => (contentOfText name, value)).map Prod.fst).Nodup ↔
      (members.map Prod.fst).Nodup := by
  rw [← List.nodup_map_iff contentOfText_injective, List.map_map, List.map_map]
  rfl

theorem holds_ofMembers (members : List (String × Json)) (name : String) (path : List String) :
    (ofMembers members).holds (name :: path) =
      (Table.lookup name members).any fun value => value.holds path := by
  rw [ofMembers, holds, lookup_contentOfText]
  cases Table.lookup name members <;> rfl

/-! ## What is left of a value -/

/-- Of a value that is no object nothing is left out. -/
theorem Abridges.eq_of_leaf (abridged : value.Abridges part)
    (leaf : ∀ members, value ≠ .object members) : part = value := by
  cases abridged with
  | whole => rfl
  | object => exact absurd rfl (leaf _)

theorem ofNat_ne_object (number : Nat) (members : List (List UInt8 × Json)) :
    ofNat number ≠ .object members := Json.noConfusion

theorem ofText_ne_object (text : String) (members : List (List UInt8 × Json)) :
    ofText text ≠ .object members := Json.noConfusion

theorem Abridges.exists_object {members : List (List UInt8 × Json)}
    (abridged : (Json.object members).Abridges part) : ∃ kept, part = .object kept := by
  cases abridged with
  | whole => exact ⟨members, rfl⟩
  | object => exact ⟨_, rfl⟩

/-- What is left of a plain value is plain. -/
theorem Abridges.plain (abridged : value.Abridges part) (plain : value.Plain) : part.Plain := by
  induction abridged with
  | whole => exact plain
  | object origin _ listed _ ih =>
      cases plain with
      | object named each =>
          refine .object (fun member inside => ?_) fun member inside => ?_
          · exact named (member.1, origin member.1) (listed member inside)
          · exact ih member inside (each _ (listed member inside))

/-- **An object under names is abridged to an object under names.** Under each name stands what
is left of the member of that name. -/
theorem Abridges.exists_ofMembers (abridged : (ofMembers full).Abridges part)
    (distinct : (full.map Prod.fst).Nodup) :
    ∃ kept, part = ofMembers kept ∧ (kept.map Prod.fst).Nodup ∧
      ∀ member ∈ kept, ∃ whole, Table.lookup member.1 full = some whole ∧
        whole.Abridges member.2 := by
  generalize same : ofMembers full = value at abridged
  cases abridged with
  | whole =>
      refine ⟨full, same.symm, distinct, fun member inside => ⟨member.2, ?_, .whole _⟩⟩
      exact Table.lookup_of_mem distinct inside
  | @object members raw origin unlike listed each =>
      obtain rfl := Json.object.inj same
      -- Every name that is left is one of the object, and so it is the content of a text.
      have known : ∀ member ∈ raw, ∃ name,
          member.1 = contentOfText name ∧ (name, origin member.1) ∈ full := by
        intro member inside
        obtain ⟨⟨name, value⟩, there, equal⟩ := List.mem_map.mp (listed member inside)
        obtain ⟨first, second⟩ := Prod.mk.inj equal
        exact ⟨name, first.symm, second ▸ there⟩
      obtain ⟨kept, rfl⟩ := exists_map_contentOfText fun member inside =>
        (known member inside).imp fun _ => And.left
      refine ⟨kept, rfl, nodup_contentOfText_iff.mp unlike, fun member inside => ?_⟩
      have coded : (contentOfText member.1, member.2) ∈
          kept.map fun (name, value) => (contentOfText name, value) :=
        List.mem_map.mpr ⟨member, inside, rfl⟩
      obtain ⟨name, first, there⟩ := known _ coded
      obtain rfl := contentOfText_injective first
      exact ⟨_, Table.lookup_of_mem distinct there, each _ coded⟩

/-- Members under some of the names are what is left of an object if each of them is what is left
of the member of its name. -/
theorem abridges_ofMembers (unlike : (kept.map Prod.fst).Nodup)
    (each : ∀ member ∈ kept, ∃ whole, Table.lookup member.1 full = some whole ∧
      whole.Abridges member.2) : (ofMembers full).Abridges (ofMembers kept) := by
  let coded := full.map fun (name, value) => (contentOfText name, value)
  refine .object (fun content => (Table.lookup content coded).getD .null)
    (nodup_contentOfText_iff.mpr unlike) ?_ ?_
  all_goals
    intro member inside
    obtain ⟨⟨name, value⟩, there, rfl⟩ := List.mem_map.mp inside
    obtain ⟨whole, found, abridged⟩ := each _ there
    have same : Table.lookup (contentOfText name) coded = some whole :=
      (lookup_contentOfText name full).trans found
    rw [same]
  · exact Table.mem_of_lookup same
  · exact abridged

/-! ## Reading what is left -/

/-- The fields of a record that are read from what is left of an object: each of them is what is
left of the member of its name, and the paths go through the fields. -/
structure Given (full : List (String × Json)) (part : Json) (fields : Fields) : Prop where
  origin : ∀ name value, fields.find? name = some value →
    ∃ whole, Table.lookup name full = some whole ∧ whole.Abridges value
  holds : ∀ name path,
    part.holds (name :: path) = (fields.find? name).any fun value => value.holds path

/-- **What is left of an object is read as a record with some of the fields.** -/
theorem Abridges.fields? (abridged : (ofMembers full).Abridges part) (names : List String)
    (distinct : (full.map Prod.fst).Nodup) (known : ∀ member ∈ full, member.1 ∈ names) :
    ∃ fields, part.fields? names = some fields ∧ Given full part fields := by
  obtain ⟨kept, rfl, unlike, each⟩ := abridged.exists_ofMembers distinct
  have listed : ∀ member ∈ kept, member.1 ∈ names := by
    intro member inside
    obtain ⟨whole, found, -⟩ := each member inside
    exact known (member.1, whole) (Table.mem_of_lookup found)
  obtain ⟨fields, read, found⟩ := fields?_of_eq_ofMembers names rfl listed unlike
  refine ⟨fields, read, fun name value given => ?_, fun name path => ?_⟩
  · exact each (name, value) (Table.mem_of_lookup ((found name).symm.trans given))
  · rw [holds_ofMembers, found]

/-- **A field that is left out is read as its default value**, and any other field as what is left
of it, which is known by the paths through the field. -/
theorem Given.withDefault {α : Type} {fields : Fields} {whole : Json} {read : Json → Option α}
    (given : Given full part fields) (listed : Table.lookup name full = some whole)
    (result : (List String → Bool) → α) (default : α)
    (reads : ∀ value, whole.Abridges value → read value = some (result value.holds)) :
    fields.withDefault name read default = some
      (if part.holds [name] then result fun path => part.holds (name :: path) else default) := by
  have here : part.holds [name] = (fields.find? name).isSome := by
    rw [given.holds]
    cases fields.find? name <;> rfl
  rw [Fields.withDefault, here]
  cases found : fields.find? name with
  | none => rfl
  | some value =>
      obtain ⟨other, same, abridged⟩ := given.origin name value found
      obtain rfl := Option.some.inj (listed.symm.trans same)
      have paths : (fun path => part.holds (name :: path)) = value.holds := by
        funext path
        rw [given.holds, found, Option.any_some]
      rw [paths]
      exact reads value abridged

theorem Abridges.toNatBelow? {number bound : Nat} (below : number < bound)
    (abridged : (ofNat number).Abridges part) : part.toNatBelow? bound = some number := by
  rw [abridged.eq_of_leaf (ofNat_ne_object number), toNatBelow?_ofNat, if_pos below]

/-- A field that holds a whole number is read as the number, unless it is left out. -/
theorem Given.withDefault_ofNat {fields : Fields} {number bound : Nat}
    (given : Given full part fields) (listed : Table.lookup name full = some (ofNat number))
    (below : number < bound) (default : Nat) :
    fields.withDefault name (Json.toNatBelow? bound) default =
      some (if part.holds [name] then number else default) :=
  given.withDefault listed (fun _ => number) default fun _ => Abridges.toNatBelow? below

theorem Abridges.toText? {text : String} (abridged : (ofText text).Abridges part) :
    part.toText? = some text := by
  rw [abridged.eq_of_leaf (ofText_ne_object text)]
  exact textOfContent?_contentOfText text

/-- A record that may be missing is read as what is left of it. -/
theorem Abridges.toOption? {α : Type} {toJson : α → Json} {read : Json → Option α}
    {given : Option α} {result : α → (List String → Bool) → α}
    (abridged : (ofOption toJson given).Abridges part)
    (record : ∀ value, ∃ members, toJson value = .object members)
    (reads : ∀ value ∈ given, ∀ part, (toJson value).Abridges part →
      read part = some (result value part.holds)) :
    part.toOption? read = some (given.map fun value => result value part.holds) := by
  cases given with
  | none =>
      obtain rfl : part = .null := abridged.eq_of_leaf fun _ => Json.noConfusion
      rfl
  | some value =>
      have found := reads value rfl part abridged
      obtain ⟨members, object⟩ := record value
      have left : (Json.object members).Abridges part := object ▸ abridged
      obtain ⟨kept, rfl⟩ := left.exists_object
      show (read _).map some = _
      rw [found]
      rfl

end LeaseCache.Json
