import LeaseCache.Arena.Allocator
import LeaseCache.Arena.Memory

/-!
# Arenas

An arena is a memory of fixed capacity together with an allocator for it. The
bytes and the reservations are independent: a write needs a region inside the
arena and no reservation, and giving a region back leaves its bytes.
-/

set_option autoImplicit false

namespace LeaseCache

/-- A memory of fixed capacity and the allocator of its ranges. -/
structure Arena where
  allocator : Allocator
  memory : Memory
  deriving DecidableEq

/-- The state of an arena in numbers. -/
structure ArenaStats where
  total : Nat
  used : Nat
  available : Nat
  largestFree : Nat
  freeRanges : Nat
  deriving DecidableEq, Repr

namespace Arena

/-- An arena of zeros without reservations. -/
def fresh (capacity alignment : Nat) : Arena := ⟨.fresh capacity alignment, .blank⟩

/-- Makes an arena. The alignment has to be a power of two, and then the memory is asked for as a
whole. -/
def create (capacity alignment : Nat) : Except CreationError Arena :=
  if isPowerOfTwo alignment then
    if isUnaddressable capacity then .error .unaddressable else .ok (fresh capacity alignment)
  else .error (.refused (.invalidSize (.alignment alignment)))

/-- An arena is made exactly if the alignment is a power of two and the bytes can be asked for. -/
theorem create_eq_ok_iff {capacity alignment : Nat} {arena : Arena} :
    create capacity alignment = .ok arena ↔
      isPowerOfTwo alignment = true ∧ capacity < addressBound ∧
        arena = fresh capacity alignment := by
  rw [← Nat.not_le, create]
  by_cases power : isPowerOfTwo alignment = true <;> by_cases huge : addressBound ≤ capacity <;>
    simp [power, huge, isUnaddressable, eq_comm]

/-- The number of bytes. -/
def capacity (arena : Arena) : Nat := arena.allocator.capacity

/-- Reserves a region of `size` bytes. -/
def allocate (arena : Arena) (size : Nat) : Except CacheError (Region × Arena) :=
  if size = 0 then .error (.invalidSize .zeroAllocation)
  else match arena.allocator.allocate? size with
    | some (offset, allocator) => .ok (⟨offset, size⟩, { arena with allocator := allocator })
    | none => .error (.outOfSpace size)

/-- Whether a region lies inside the arena. -/
def checkBounds (arena : Arena) (region : Region) : Except ArenaFault Unit :=
  if region.stop ≤ arena.capacity then .ok ()
  else .error (.outside region.offset region.length arena.capacity)

/-- Gives the reservation at the offset of a region back. -/
def free (arena : Arena) (region : Region) : Except ArenaFault Arena := do
  arena.checkBounds region
  match arena.allocator.release? region.offset with
  | some allocator => .ok { arena with allocator := allocator }
  | none => .error (.unreserved region.offset)

/-- Puts data at the start of a region. -/
def write (arena : Arena) (region : Region) (data : ByteArray) : Except ArenaFault Arena := do
  arena.checkBounds region
  if region.length < data.size then .error (.oversized data.size region.length)
  else .ok { arena with memory := arena.memory.write region.offset data }

/-- The bytes of a region. -/
def read (arena : Arena) (region : Region) : Except ArenaFault ByteArray := do
  arena.checkBounds region
  return arena.memory.read region.offset region.length

/-- The length of the longest free range. -/
def largestFree (arena : Arena) : Nat := arena.allocator.largestFree

/-- Whether `size` bytes fit now. -/
def canAllocate (arena : Arena) (size : Nat) : Bool := arena.allocator.fits size

/-- Whether `size` bytes would fit after a region is given back. -/
def canAllocateAfterFree (arena : Arena) (size : Nat) (region : Region) : Bool :=
  arena.allocator.fitsAfterRelease size region.offset

/-- The state of the arena in numbers. -/
def stats (arena : Arena) : ArenaStats where
  total := arena.capacity
  used := arena.allocator.used
  available := arena.allocator.available
  largestFree := arena.largestFree
  freeRanges := arena.allocator.free.length

end Arena

end LeaseCache
