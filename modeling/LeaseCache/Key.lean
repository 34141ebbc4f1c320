import LeaseCache.Bytes

/-!
# Keys

A key is an opaque byte string. Two keys are equal when their bytes are, and
keys are ordered byte by byte, a proper prefix first. Messages show a key as
text: visible characters stand for themselves and every other byte is written
as `\x` and two hexadecimal digits.
-/

set_option autoImplicit false

namespace LeaseCache

/-- An object identifier: any byte string. -/
structure Key where
  bytes : List UInt8

namespace Key

/-- Whether two byte strings are the same. -/
def sameBytes : List UInt8 → List UInt8 → Bool
  | [], [] => true
  | left :: lefts, right :: rights => left = right && sameBytes lefts rights
  | _, _ => false

theorem sameBytes_iff (left right : List UInt8) : sameBytes left right = true ↔ left = right := by
  induction left generalizing right with
  | nil => cases right <;> simp [sameBytes]
  | cons byte rest ih => cases right <;> simp [sameBytes, ih]

instance : DecidableEq Key := fun left right =>
  decidable_of_iff (sameBytes left.bytes right.bytes = true) (by
    rw [sameBytes_iff]
    exact ⟨fun same => congrArg Key.mk same, fun same => congrArg Key.bytes same⟩)

/-- The longest key that can be stored, in bytes. -/
def maxLength : Nat := 256

/-- The key whose bytes are the text in UTF-8. -/
def ofString (text : String) : Key := ⟨Bytes.toList text.toUTF8⟩

/-- A 64-bit object number as a key of eight bytes, most significant first. -/
def ofObjectId (number : UInt64) : Key := ⟨Bytes.bigEndian 8 number.toNat⟩

/-- The number of bytes. -/
def length (key : Key) : Nat := key.bytes.length

/-- Whether the key has no byte. -/
def isEmpty (key : Key) : Bool := key.bytes.isEmpty

/-- The text of one byte: itself if it is visible, else `\x` and its digits. -/
def displayByte (byte : UInt8) : List Char :=
  if 0x21 ≤ byte.toNat ∧ byte.toNat ≤ 0x7e then [Char.ofNat byte.toNat]
  else ['\\', 'x'] ++ Bytes.hexDigits byte

/-- The text of the key in messages. -/
def display (key : Key) : String :=
  String.ofList (key.bytes.flatMap displayByte)

/-- The text of the key as a value, with its type. -/
def describe (key : Key) : String := "Key(\"" ++ key.display ++ "\")"

/-- Lexicographic order of two byte strings. -/
def compareBytes : List UInt8 → List UInt8 → Ordering
  | [], [] => .eq
  | [], _ :: _ => .lt
  | _ :: _, [] => .gt
  | left :: lefts, right :: rights =>
      if left < right then .lt
      else if right < left then .gt
      else compareBytes lefts rights

instance : Ord Key := ⟨fun left right => compareBytes left.bytes right.bytes⟩

end Key

end LeaseCache
