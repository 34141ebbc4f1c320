/-!
# Byte strings and numbers in bytes

Payloads, frames and keys are byte strings. Numbers are written to bytes with a
fixed width, least significant byte first (`littleEndian`) or last
(`bigEndian`).
-/

set_option autoImplicit false

namespace LeaseCache

namespace Bytes

/-- Byte strings are compared by their bytes. -/
instance (priority := high) decidableEq : DecidableEq ByteArray := fun left right =>
  decidable_of_iff (left.data = right.data) ⟨ByteArray.ext, congrArg ByteArray.data⟩

/-- A byte string of zeros. -/
def zeros (length : Nat) : ByteArray := ⟨Array.replicate length 0⟩

@[simp] theorem size_zeros (length : Nat) : (zeros length).size = length :=
  Array.size_replicate

/-- The lowest `width` bytes of a number, least significant first. -/
def littleEndian : (width : Nat) → Nat → List UInt8
  | 0, _ => []
  | width + 1, value => UInt8.ofNat value :: littleEndian width (value / 256)

/-- The lowest `width` bytes of a number, most significant first. -/
def bigEndian (width value : Nat) : List UInt8 := (littleEndian width value).reverse

/-- The number written by bytes with the least significant first. -/
def ofLittleEndian : List UInt8 → Nat
  | [] => 0
  | byte :: rest => byte.toNat + 256 * ofLittleEndian rest

/-- The number written by bytes with the most significant first. -/
def ofBigEndian (bytes : List UInt8) : Nat := ofLittleEndian bytes.reverse

@[simp] theorem length_littleEndian (width value : Nat) :
    (littleEndian width value).length = width := by
  induction width generalizing value with
  | zero => rfl
  | succ width ih => simp [littleEndian, ih]

@[simp] theorem length_bigEndian (width value : Nat) :
    (bigEndian width value).length = width := by
  simp [bigEndian]

/-- The list of the bytes of a byte string. -/
def toList (bytes : ByteArray) : List UInt8 := bytes.data.toList

/-- The two lowercase hexadecimal digits of a byte. -/
def hexDigits (byte : UInt8) : List Char :=
  [Nat.digitChar (byte.toNat / 16), Nat.digitChar (byte.toNat % 16)]

end Bytes

end LeaseCache
