import LeaseCache.Json.Value
import LeaseCache.Table

/-!
# Records

A record is read from an object, whose members stand in any order, or from an
array of the fields in their declared order. Members of other names are
skipped; a field that occurs twice, or a longer array, is refused. A field that
is missing may have a default value.
-/

set_option autoImplicit false

namespace LeaseCache.Json

/-- The fields of a record that were given, by name. -/
abbrev Fields := Table String Json

/-- The fields among the members of an object. -/
def fieldsOfMembers (names : List String) : List (List UInt8 × Json) → Fields → Option Fields
  | [], fields => some fields
  | (content, value) :: rest, fields =>
      match textOfContent? content with
      | none => none
      | some name =>
          if !names.contains name then fieldsOfMembers names rest fields
          else if fields.contains name then none
          else fieldsOfMembers names rest (fields.insert name value)

/-- The fields in the order of their names. -/
def fieldsOfItems : List String → List Json → Fields → Option Fields
  | _, [], fields => some fields
  | [], _ :: _, _ => none
  | name :: names, value :: values, fields =>
      fieldsOfItems names values (fields.insert name value)

/-- The given fields of a record with fields of the given names. -/
def fields? (names : List String) : Json → Option Fields
  | .object members => fieldsOfMembers names members .empty
  | .array items => fieldsOfItems names items .empty
  | _ => none

/-- A field that has to be given. -/
def Fields.required {α : Type} (fields : Fields) (name : String) (read : Json → Option α) :
    Option α := do
  let value ← fields.find? name
  read value

/-- A field that has a default value. -/
def Fields.withDefault {α : Type} (fields : Fields) (name : String) (read : Json → Option α)
    (default : α) : Option α :=
  match fields.find? name with
  | some value => read value
  | none => some default

end LeaseCache.Json
