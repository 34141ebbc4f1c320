import LeaseCache.Bytes

/-!
# Memory that starts as zeros

Only a leading part of a memory is stored, and every byte behind it is zero, so
a large memory costs no more than its written part. `Memory.byteAt` is the
byte at an offset; reading and writing are stated through it.
-/

set_option autoImplicit false

namespace LeaseCache

/-- Bytes at offsets from zero upward: the stored ones, then zeros. -/
structure Memory where
  stored : ByteArray
  deriving DecidableEq

namespace Memory

/-- Every byte is zero. -/
def blank : Memory := ⟨.empty⟩

/-- The byte at an offset. -/
def byteAt (memory : Memory) (offset : Nat) : UInt8 := memory.stored.data.getD offset 0

/-- The bytes from an offset on. -/
def read (memory : Memory) (offset length : Nat) : ByteArray :=
  let part := memory.stored.extract offset (offset + length)
  part ++ Bytes.zeros (length - part.size)

/-- The stored part, made at least as long as an offset. -/
def reach (memory : Memory) (offset : Nat) : ByteArray :=
  if memory.stored.size < offset then
    memory.stored ++ Bytes.zeros (offset - memory.stored.size)
  else memory.stored

/-- Puts bytes at an offset. -/
def write (memory : Memory) (offset : Nat) (data : ByteArray) : Memory :=
  ⟨data.copySlice 0 (memory.reach offset) offset data.size false⟩

end Memory

end LeaseCache
