import LeaseCache.Arena.Memory
import Mathlib.Data.List.Basic

/-!
# Reading what was written

A memory is determined by its bytes. A write changes the bytes it covers and no
other (`byteAt_write`), and what is read is the bytes in order (`getD_read`). So
a read returns what was written at its place, and a read away from a write does
not see it.
-/

set_option autoImplicit false

namespace LeaseCache

namespace Memory

theorem getD_zeros (length index : Nat) : (Bytes.zeros length).data.getD index 0 = 0 := by
  simp only [Bytes.zeros, Array.getD_eq_getD_getElem?, Array.getElem?_replicate]
  split <;> rfl

theorem le_size_reach (memory : Memory) (offset : Nat) : offset ≤ (memory.reach offset).size := by
  unfold reach
  split
  · simp only [ByteArray.size_append, Bytes.size_zeros]
    omega
  · omega

/-- Making the stored part longer changes no byte. -/
theorem getD_reach (memory : Memory) (offset index : Nat) :
    (memory.reach offset).data.getD index 0 = memory.byteAt index := by
  unfold reach byteAt
  split
  · simp only [ByteArray.data_append, Array.getD_eq_getD_getElem?, Array.getElem?_append]
    split
    · rfl
    · next beyond =>
        rw [Array.getElem?_eq_none (Nat.le_of_not_lt beyond), ← Array.getD_eq_getD_getElem?,
          getD_zeros]
        rfl
  · rfl

/-- A write changes the bytes it covers and no other. -/
theorem byteAt_write (memory : Memory) (offset : Nat) (data : ByteArray) (position : Nat) :
    (memory.write offset data).byteAt position =
      if offset ≤ position ∧ position < offset + data.size then
        data.data.getD (position - offset) 0
      else memory.byteAt position := by
  have reached := memory.le_size_reach offset
  have front : (memory.reach offset).data.size = (memory.reach offset).size := rfl
  rw [← getD_reach memory offset position]
  simp only [byteAt, write, ByteArray.copySlice, Array.getD_eq_getD_getElem?,
    Array.getElem?_append, Array.getElem?_extract, Array.size_append, Array.size_extract]
  have size : data.data.size = data.size := rfl
  grind

theorem size_read (memory : Memory) (offset length : Nat) :
    (memory.read offset length).size = length := by
  simp only [read, ByteArray.size_append, ByteArray.size_extract, Bytes.size_zeros]
  omega

/-- What is read at an offset is the bytes from there on. -/
theorem getD_read (memory : Memory) {offset length index : Nat} (inside : index < length) :
    (memory.read offset length).data.getD index 0 = memory.byteAt (offset + index) := by
  simp only [read, byteAt, ByteArray.data_append, ByteArray.data_extract, Bytes.zeros,
    Array.getD_eq_getD_getElem?, Array.getElem?_append, Array.getElem?_extract,
    Array.getElem?_replicate, Array.size_extract]
  grind

/-- Byte strings of one size with the same bytes are the same. -/
theorem eq_of_getD_eq {left right : ByteArray} (size : left.size = right.size)
    (same : ∀ index < left.size, left.data.getD index 0 = right.data.getD index 0) :
    left = right := by
  refine ByteArray.ext (Array.ext size fun index inLeft inRight => ?_)
  have here := same index inLeft
  rwa [Array.getD_eq_getD_getElem?, Array.getD_eq_getD_getElem?,
    Array.getElem?_eq_getElem inLeft, Array.getElem?_eq_getElem inRight] at here

/-- A read depends only on the bytes it covers. -/
theorem read_congr {memory other : Memory} {offset length : Nat}
    (same : ∀ position, offset ≤ position → position < offset + length →
      memory.byteAt position = other.byteAt position) :
    memory.read offset length = other.read offset length := by
  refine eq_of_getD_eq (by rw [size_read, size_read]) fun index inside => ?_
  rw [size_read] at inside
  rw [getD_read memory inside, getD_read other inside]
  exact same _ (Nat.le_add_right _ _) (Nat.add_lt_add_left inside _)

/-- A part of what is read is what is read at the place of the part. -/
theorem extract_read (memory : Memory) {offset length start part : Nat}
    (inside : start + part ≤ length) :
    (memory.read offset length).extract start (start + part) =
      memory.read (offset + start) part := by
  have size : ((memory.read offset length).extract start (start + part)).size = part := by
    rw [ByteArray.size_extract, size_read]
    omega
  refine eq_of_getD_eq (by rw [size, size_read]) fun index within => ?_
  rw [size] at within
  have here : start + index < length := by omega
  rw [getD_read memory within, Nat.add_assoc, ← getD_read memory here]
  simp only [ByteArray.data_extract, Array.getD_eq_getD_getElem?, Array.getElem?_extract]
  have bound : index < min (start + part) (memory.read offset length).data.size - start := by
    have total : (memory.read offset length).data.size = length := size_read _ _ _
    omega
  rw [if_pos bound]

/-- Reading at the place of a write gives what was written. -/
theorem read_write_self (memory : Memory) (offset : Nat) (data : ByteArray) :
    (memory.write offset data).read offset data.size = data := by
  refine eq_of_getD_eq (size_read _ _ _) fun index inside => ?_
  rw [size_read] at inside
  rw [getD_read _ inside, byteAt_write, if_pos ⟨Nat.le_add_right _ _, Nat.add_lt_add_left inside _⟩,
    Nat.add_sub_cancel_left]

/-- Reading away from a write does not see it. -/
theorem read_write_of_apart (memory : Memory) {offset other length : Nat} {data : ByteArray}
    (apart : offset + data.size ≤ other ∨ other + length ≤ offset) :
    (memory.write offset data).read other length = memory.read other length := by
  refine read_congr fun position after before => ?_
  rw [byteAt_write, if_neg]
  omega

end Memory

end LeaseCache
