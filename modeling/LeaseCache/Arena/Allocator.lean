import LeaseCache.Error

/-!
# First-fit allocation over a range of offsets

The allocator divides `[0, capacity)` into free and reserved ranges. Sizes are
rounded up to the alignment, the first free range that is long enough is cut at
its lower end, and a range given back joins the free ranges that touch it.
Both kinds of range are kept in the order of their offsets.
-/

set_option autoImplicit false

namespace LeaseCache

/-- A range of bytes, by offset and length. -/
structure Region where
  offset : Nat
  length : Nat
  deriving DecidableEq, Repr

/-- The offset behind the last byte. -/
def Region.stop (region : Region) : Nat := region.offset + region.length

/-- The division of a range of offsets into free and reserved ranges, and the number of
reserved bytes. -/
structure Allocator where
  capacity : Nat
  alignment : Nat
  free : List Region
  reserved : List Region
  used : Nat
  deriving DecidableEq

namespace Allocator

/-- All of `[0, capacity)` is free. -/
def fresh (capacity alignment : Nat) : Allocator where
  capacity := capacity
  alignment := alignment
  free := if capacity = 0 then [] else [⟨0, capacity⟩]
  reserved := []
  used := 0

/-- A size with the bits below the alignment rounded up, if the sum fits a word.
The mask has the bits of a word from the alignment upward. -/
def reservedLength? (allocator : Allocator) (size : Nat) : Option Nat :=
  let sum := size + (allocator.alignment - 1)
  if sum < wordBound then some (sum &&& (wordBound - allocator.alignment)) else none

/-- The bytes that are not reserved. -/
def available (allocator : Allocator) : Nat := allocator.capacity - allocator.used

/-- The length of the longest free range. -/
def largestFree (allocator : Allocator) : Nat :=
  (allocator.free.map Region.length).foldl max 0

/-- Cuts `needed` bytes from the first range that has them. -/
def takeFirst (needed : Nat) : List Region → Option (Nat × List Region)
  | [] => none
  | range :: rest =>
      if needed ≤ range.length then
        let remainder : Region := ⟨range.offset + needed, range.length - needed⟩
        some (range.offset, if needed < range.length then remainder :: rest else rest)
      else (takeFirst needed rest).map fun (offset, rest) => (offset, range :: rest)

/-- Puts a range into a list ordered by offset. -/
def insertOrdered (range : Region) : List Region → List Region
  | [] => [range]
  | first :: rest =>
      if range.offset < first.offset then range :: first :: rest
      else first :: insertOrdered range rest

/-- Joins a range with the first of the following ranges, if they touch. -/
def joinNext (range : Region) : List Region → List Region
  | [] => [range]
  | next :: rest =>
      if range.stop = next.offset then ⟨range.offset, range.length + next.length⟩ :: rest
      else range :: next :: rest

/-- Puts a range among the free ranges and joins it with those that touch it. -/
def giveBack (range : Region) : List Region → List Region
  | [] => [range]
  | first :: rest =>
      if range.offset < first.offset then joinNext range (first :: rest)
      else if first.stop = range.offset then
        joinNext ⟨first.offset, first.length + range.length⟩ rest
      else first :: giveBack range rest

/-- The reservation that starts at an offset. -/
def reservation? (allocator : Allocator) (offset : Nat) : Option Region :=
  allocator.reserved.find? fun range => range.offset = offset

/-- Reserves room for `size` bytes in the first free range that is long enough. -/
def allocate? (allocator : Allocator) (size : Nat) : Option (Nat × Allocator) := do
  let needed ← allocator.reservedLength? size
  let (offset, free) ← takeFirst needed allocator.free
  return (offset, { allocator with
    free := free
    reserved := insertOrdered ⟨offset, needed⟩ allocator.reserved
    used := allocator.used + needed })

/-- Gives the reservation at an offset back. -/
def release? (allocator : Allocator) (offset : Nat) : Option Allocator := do
  let range ← allocator.reservation? offset
  return { allocator with
    free := giveBack range allocator.free
    reserved := allocator.reserved.filter fun other => other.offset ≠ offset
    used := allocator.used - range.length }

/-- Whether the longest free range holds `size` bytes rounded up. -/
def fits (allocator : Allocator) (size : Nat) : Bool :=
  match allocator.reservedLength? size with
  | some needed => needed ≤ allocator.largestFree
  | none => false

/-- The range that giving back a reservation would make: the reservation, the free range
that ends where it starts and the free range that starts where it ends. -/
def joined (allocator : Allocator) (range : Region) : Region :=
  let before := allocator.free.find? fun other => other.stop = range.offset
  let after := allocator.free.find? fun other => other.offset = range.stop
  let start := (before.map Region.offset).getD range.offset
  let stop := (after.map Region.stop).getD range.stop
  ⟨start, stop - start⟩

/-- Whether `size` bytes would fit once the reservation at an offset were given back. -/
def fitsAfterRelease (allocator : Allocator) (size offset : Nat) : Bool :=
  match allocator.reservedLength? size with
  | none => false
  | some needed =>
      if needed ≤ allocator.largestFree then true
      else match allocator.reservation? offset with
        | none => false
        | some range => needed ≤ (allocator.joined range).length

end Allocator

end LeaseCache
