import LeaseCache.Bytes
import Mathlib.Algebra.Group.Nat.Defs

/-!
# Numbers in bytes

Reading back what was written gives the number, reduced to the width
(`ofLittleEndian_littleEndian`), and writing the number that was read gives the
bytes (`littleEndian_ofLittleEndian`).
-/

set_option autoImplicit false

namespace LeaseCache

namespace Bytes

/-- Reading the bytes of a number gives the number modulo the width. -/
theorem ofLittleEndian_littleEndian (width value : Nat) :
    ofLittleEndian (littleEndian width value) = value % 256 ^ width := by
  induction width generalizing value with
  | zero => simp [littleEndian, ofLittleEndian, Nat.mod_one]
  | succ width ih =>
      have low : (UInt8.ofNat value).toNat = value % 256 := UInt8.toNat_ofNat'
      have split : 256 ^ (width + 1) = 256 * 256 ^ width := Nat.pow_succ'
      rw [littleEndian, ofLittleEndian, ih, low, split, Nat.mod_mul]

/-- The bytes of the number that some bytes write are those bytes. -/
theorem littleEndian_ofLittleEndian (bytes : List UInt8) :
    littleEndian bytes.length (ofLittleEndian bytes) = bytes := by
  induction bytes with
  | nil => rfl
  | cons byte rest ih =>
      have bound := byte.toNat_lt
      have low : (byte.toNat + 256 * ofLittleEndian rest) % 256 = byte.toNat := by omega
      have high : (byte.toNat + 256 * ofLittleEndian rest) / 256 = ofLittleEndian rest := by omega
      have first : UInt8.ofNat (byte.toNat + 256 * ofLittleEndian rest) = byte := by
        apply UInt8.toNat_inj.mp
        rw [UInt8.toNat_ofNat']
        exact low
      simp only [List.length_cons, littleEndian, ofLittleEndian, high, ih, first]

/-- Bytes write a number below the bound of their width. -/
theorem ofLittleEndian_lt (bytes : List UInt8) : ofLittleEndian bytes < 256 ^ bytes.length := by
  induction bytes with
  | nil => simp [ofLittleEndian]
  | cons byte rest ih =>
      have bound := byte.toNat_lt
      simp only [ofLittleEndian, List.length_cons, Nat.pow_succ]
      omega

/-- A byte string has the bytes of its list. -/
theorem toByteArray_toList (bytes : ByteArray) : (toList bytes).toByteArray = bytes := by
  apply ByteArray.ext
  rw [List.data_toByteArray, toList]

theorem toList_toByteArray (bytes : List UInt8) : toList bytes.toByteArray = bytes := by
  rw [toList, List.data_toByteArray]

end Bytes

end LeaseCache
