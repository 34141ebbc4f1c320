import LeaseCache.Json.Token

/-!
# Values and their texts

A value is a word, a number, a string, an array or an object. Numbers and
strings are kept as they are written. `Json.print` writes a value without
blanks and `Json.parse?` reads one, together with any blanks between its parts.
-/

set_option autoImplicit false

namespace LeaseCache

/-- A value of a structured text. -/
inductive Json where
  | null
  | bool (value : Bool)
  | number (literal : List UInt8)
  | string (content : List UInt8)
  | array (items : List Json)
  | object (members : List (List UInt8 × Json))

namespace Json

mutual

/-- A value off the front of some tokens. -/
def parseValue : (fuel : Nat) → List Token → Option (Json × List Token)
  | 0, _ => none
  | fuel + 1, token :: rest =>
      match token with
      | .null => some (.null, rest)
      | .bool value => some (.bool value, rest)
      | .number literal => some (.number literal, rest)
      | .string content => some (.string content, rest)
      | .beginArray =>
          match rest with
          | .endArray :: rest => some (.array [], rest)
          | _ => (parseItems fuel rest).map fun (items, rest) => (.array items, rest)
      | .beginObject =>
          match rest with
          | .endObject :: rest => some (.object [], rest)
          | _ => (parseMembers fuel rest).map fun (members, rest) => (.object members, rest)
      | _ => none
  | _ + 1, [] => none

/-- The items of an array and its end. -/
def parseItems : (fuel : Nat) → List Token → Option (List Json × List Token)
  | 0, _ => none
  | fuel + 1, tokens =>
      match parseValue fuel tokens with
      | some (item, .endArray :: rest) => some ([item], rest)
      | some (item, .comma :: rest) =>
          (parseItems fuel rest).map fun (items, rest) => (item :: items, rest)
      | _ => none

/-- The members of an object and its end. -/
def parseMembers : (fuel : Nat) → List Token → Option (List (List UInt8 × Json) × List Token)
  | 0, _ => none
  | fuel + 1, .string name :: .colon :: tokens =>
      match parseValue fuel tokens with
      | some (value, .endObject :: rest) => some ([(name, value)], rest)
      | some (value, .comma :: rest) =>
          (parseMembers fuel rest).map fun (members, rest) => ((name, value) :: members, rest)
      | _ => none
  | _ + 1, _ => none

end

/-- The value that a text is. -/
def parse? (bytes : List UInt8) : Option Json := do
  let tokens ← tokens? bytes
  match parseValue (2 * tokens.length + 1) tokens with
  | some (value, []) => some value
  | _ => none

mutual

/-- The text of a value, without blanks. -/
def print : Json → List UInt8
  | null => textBytes "null"
  | bool true => textBytes "true"
  | bool false => textBytes "false"
  | number literal => literal
  | string content => ascii '"' :: content ++ [ascii '"']
  | array items => ascii '[' :: printItems items
  | object members => ascii '\x7b' :: printMembers members

/-- The items of an array, commas between them, and its end. -/
def printItems : List Json → List UInt8
  | [] => [ascii ']']
  | [item] => print item ++ [ascii ']']
  | item :: rest => print item ++ ascii ',' :: printItems rest

/-- The members of an object, commas between them, and its end. -/
def printMembers : List (List UInt8 × Json) → List UInt8
  | [] => [ascii '\x7d']
  | [(name, value)] =>
      ascii '"' :: name ++ [ascii '"', ascii ':'] ++ print value ++ [ascii '\x7d']
  | (name, value) :: rest =>
      ascii '"' :: name ++ [ascii '"', ascii ':'] ++ print value ++ ascii ',' :: printMembers rest

end

/-- The text of a value. -/
def toText (value : Json) : String := (String.fromUTF8? value.print.toByteArray).getD ""

/-! ## Values from and to the types of settings and numbers -/

/-- A whole number. -/
def ofNat (value : Nat) : Json := .number (textBytes (toString value))

/-- A text. -/
def ofText (text : String) : Json := .string (contentOfText text)

/-- An object with members of given names. -/
def ofMembers (members : List (String × Json)) : Json :=
  .object (members.map fun (name, value) => (contentOfText name, value))

/-- A value that may be missing. -/
def ofOption {α : Type} (toJson : α → Json) : Option α → Json
  | none => .null
  | some value => toJson value

/-- The number that decimal digits write. -/
def digitsToNat (digits : List UInt8) : Nat :=
  digits.foldl (fun value digit => value * 10 + (digit.toNat - 0x30)) 0

/-- A whole number below a bound, written with digits only. -/
def toNatBelow? (bound : Nat) : Json → Option Nat
  | .number literal =>
      if literal.all isDigit ∧ digitsToNat literal < bound then some (digitsToNat literal)
      else none
  | _ => none

/-- A text. -/
def toText? : Json → Option String
  | .string content => textOfContent? content
  | _ => none

/-- A value, or nothing where the word for nothing stands. -/
def toOption? {α : Type} (read : Json → Option α) : Json → Option (Option α)
  | .null => some none
  | value => (read value).map some

end Json

end LeaseCache
