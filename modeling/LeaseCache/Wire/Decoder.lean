import LeaseCache.Bytes

/-!
# Reading records from bytes

A decoder takes a value off the front of a byte string and leaves the rest.
The decoders here are those of the parts that records are made of: numbers of
fixed width, optional values behind a byte of zero or one, and byte strings and
lists behind their length.
-/

set_option autoImplicit false

namespace LeaseCache.Wire

universe u

/-- Why bytes are not a record. -/
inductive DecodeError where
  | truncated
  | invalidText
  | invalidTag
  | invalidValue
  deriving DecidableEq, Repr

/-- Takes a value off the front of a byte string. -/
abbrev Decoder (α : Type u) := ByteArray → Except DecodeError (α × ByteArray)

/-- The first `count` bytes. -/
def takeBytes (count : Nat) : Decoder ByteArray := fun bytes =>
  if count ≤ bytes.size then .ok (bytes.extract 0 count, bytes.extract count bytes.size)
  else .error .truncated

/-- A number of `width` bytes, least significant first. -/
def takeNumber (width : Nat) : Decoder Nat := fun bytes => do
  let (part, rest) ← takeBytes width bytes
  return (Bytes.ofLittleEndian (Bytes.toList part), rest)

/-- A number of eight bytes. -/
def takeWord : Decoder UInt64 := fun bytes => do
  let (value, rest) ← takeNumber 8 bytes
  return (UInt64.ofNat value, rest)

/-- A byte of zero, or a byte of one and a value. -/
def takeOption {α : Type u} (decode : Decoder α) : Decoder (Option α) := fun bytes =>
  match takeNumber 1 bytes with
  | .error error => .error error
  | .ok (0, rest) => .ok (none, rest)
  | .ok (1, rest) => (decode rest).map fun (value, rest) => (some value, rest)
  | .ok _ => .error .invalidTag

/-- A length of eight bytes and that many bytes. -/
def takeString : Decoder ByteArray := fun bytes => do
  let (length, rest) ← takeNumber 8 bytes
  takeBytes length rest

/-- A list of a known number of values. -/
def takeList {α : Type u} (decode : Decoder α) : (count : Nat) → Decoder (List α)
  | 0 => fun bytes => .ok ([], bytes)
  | count + 1 => fun bytes =>
      match decode bytes with
      | .error error => .error error
      | .ok (value, rest) =>
          (takeList decode count rest).map fun (values, rest) => (value :: values, rest)

/-- The size of an address space. -/
def addressSpace : Nat := Nat.pow 2 47

/-- Whether room for some elements, doubled up from one, cannot be addressed. The count
itself is given by the bytes, so this is asked before an element is read. -/
def exceedsMemory (count elementSize : Nat) : Bool :=
  addressSpace ≤ Nat.pow 2 (count - 1).log2 * 2 * elementSize

end LeaseCache.Wire
