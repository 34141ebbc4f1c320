import LeaseCache.Proofs.Arena.Checked
import LeaseCache.Proofs.Arena.Holding

/-!
# An arena stays divided

Whatever is reserved in an arena and given back to it, the free and the reserved
ranges of its allocator divide the positions below the capacity, no two free
ranges meet, and every range is aligned (`Allocator.Divided`). Sizes may be as
large as they like and regions need not have been reserved: what is refused
changes nothing.

The capacity and the alignment are words. Then so is every sum and every
difference that the operations form in such a state (`Allocator.WithinWords`).
-/

set_option autoImplicit false

namespace LeaseCache

namespace Allocator

/-- The free and the reserved ranges divide the positions below a capacity. -/
structure Divided (allocator : Allocator) (capacity alignment : Nat) : Prop where
  capacity_eq : allocator.capacity = capacity
  alignment_eq : allocator.alignment = alignment
  nonempty : ∀ range ∈ allocator.free ++ allocator.reserved, 0 < range.length
  disjoint : (allocator.free ++ allocator.reserved).Pairwise Region.Disjoint
  covers : ∀ position, Covers (allocator.free ++ allocator.reserved) position ↔ position < capacity
  /-- No free range begins where another one ends. -/
  apart : ∀ first ∈ allocator.free, ∀ second ∈ allocator.free, first.stop ≠ second.offset
  starts : ∀ range ∈ allocator.free ++ allocator.reserved, alignment ∣ range.offset
  lengths : ∀ range ∈ allocator.reserved, alignment ∣ range.length
  used_eq : allocator.used = (allocator.reserved.map Region.length).sum

/-- No sum and no difference leaves the words in any operation, and the outcome is the exact one. -/
structure WithinWords (allocator : Allocator) : Prop where
  allocate : ∀ size, allocator.checkedAllocate size = some (allocator.allocate? size)
  release : ∀ offset, allocator.checkedRelease offset = some (allocator.release? offset)
  fits : ∀ size offset,
    allocator.checkedFits size offset = some (allocator.fitsAfterRelease size offset)
  available : allocator.checkedAvailable = some allocator.available

variable {allocator : Allocator}

/-- A position is covered by a free or by a reserved range exactly below the capacity. -/
theorem Tiled.covers_all (tiled : allocator.Tiled) (position : Nat) :
    Covers (allocator.free ++ allocator.reserved) position ↔ position < allocator.capacity := by
  rw [covers_append, tiled.covers]
  refine ⟨fun either => ?_, fun below => ?_⟩
  · rcases either with ⟨below, -⟩ | ⟨range, member, here⟩
    · exact below
    · exact Nat.lt_of_lt_of_le here.2 (tiled.inside range member)
  · by_cases taken : Covers allocator.reserved position
    · exact Or.inr taken
    · exact Or.inl ⟨below, taken⟩

/-- Free ranges and reservations are disjoint, among themselves and from each other. -/
theorem Tiled.disjoint_all (tiled : allocator.Tiled) :
    (allocator.free ++ allocator.reserved).Pairwise Region.Disjoint := by
  refine List.pairwise_append.mpr ⟨?_, tiled.reserved_disjoint, ?_⟩
  · exact tiled.separated.imp fun before => Or.inl (Nat.le_of_lt before)
  · intro free freeMember range member
    exact (tiled.free_disjoint member freeMember).symm

theorem Tiled.divided (tiled : allocator.Tiled) :
    allocator.Divided allocator.capacity allocator.alignment where
  capacity_eq := rfl
  alignment_eq := rfl
  nonempty range member :=
    (List.mem_append.mp member).elim (tiled.free_pos range) (tiled.reserved_pos range)
  disjoint := tiled.disjoint_all
  covers := tiled.covers_all
  apart := by
    intro first firstMember second secondMember meets
    have nonempty := tiled.free_pos first firstMember
    by_cases same : first = second
    · subst same
      simp only [Region.stop] at meets
      omega
    · have gap := tiled.separated.lt_or_lt firstMember secondMember same
      simp only [Region.stop] at *
      omega
  starts range member := (List.mem_append.mp member).elim (tiled.free_aligned range) fun reserved =>
    (tiled.reserved_aligned range reserved).1
  lengths range member := (tiled.reserved_aligned range member).2
  used_eq := tiled.used_eq

theorem Tiled.withinWords (tiled : allocator.Tiled) (word : allocator.capacity < wordBound) :
    allocator.WithinWords where
  allocate := tiled.checkedAllocate_eq word
  release := tiled.checkedRelease_eq word
  fits := tiled.checkedFits_eq word
  available := tiled.checkedAvailable_eq

end Allocator

namespace Arena

/-- What is done to the reservations of an arena. A region that is given back need not be one. -/
inductive Use where
  | allocate (size : Nat)
  | free (region : Region)
  deriving DecidableEq, Repr

/-- The arena after a use, whether it succeeds or fails. -/
def apply (arena : Arena) : Use → Arena
  | .allocate size =>
      match arena.allocate size with
      | .ok (_, next) => next
      | .error _ => arena
  | .free region =>
      match arena.free region with
      | .ok next => next
      | .error _ => arena

/-- The arena after some uses. -/
def applyAll (arena : Arena) (uses : List Use) : Arena := uses.foldl apply arena

variable {arena : Arena} {region : Region} {size : Nat}

/-- What giving a region back does: a release at its offset. -/
theorem eq_of_free {next : Arena} (freed : arena.free region = .ok next) :
    ∃ allocator, arena.allocator.release? region.offset = some allocator ∧
      next = { arena with allocator := allocator } := by
  unfold Arena.free at freed
  cases inside : arena.checkBounds region with
  | error fault =>
      rw [inside] at freed
      cases freed
  | ok _ =>
      rw [inside] at freed
      simp only [bind, Except.bind] at freed
      split at freed
      · next allocator released =>
          obtain rfl := Except.ok.inj freed
          exact ⟨allocator, released, rfl⟩
      · cases freed

/-- One use keeps the tiling, the capacity and the alignment. -/
theorem tiled_apply (tiled : arena.allocator.Tiled) (use : Use) :
    (arena.apply use).allocator.Tiled ∧
      (arena.apply use).allocator.capacity = arena.allocator.capacity ∧
      (arena.apply use).allocator.alignment = arena.allocator.alignment := by
  cases use with
  | allocate size =>
      rw [apply]
      cases made : arena.allocate size with
      | error error => exact ⟨tiled, rfl, rfl⟩
      | ok result =>
          obtain ⟨region, next⟩ := result
          obtain ⟨positive, -, allocator, taken, rfl⟩ := eq_of_allocate made
          exact ⟨tiled.allocate positive taken, Allocator.capacity_of_allocate? taken⟩
  | free region =>
      rw [apply]
      cases freed : arena.free region with
      | error fault => exact ⟨tiled, rfl, rfl⟩
      | ok next =>
          obtain ⟨allocator, released, rfl⟩ := eq_of_free freed
          exact ⟨tiled.release released, Allocator.capacity_of_release? released⟩

/-- No use changes the number of bytes. -/
theorem capacity_apply (arena : Arena) (use : Use) :
    (arena.apply use).capacity = arena.capacity := by
  cases use with
  | allocate size =>
      rw [apply]
      cases made : arena.allocate size with
      | error error => rfl
      | ok result =>
          obtain ⟨region, next⟩ := result
          obtain ⟨-, -, allocator, taken, rfl⟩ := eq_of_allocate made
          exact (Allocator.capacity_of_allocate? taken).1
  | free region =>
      rw [apply]
      cases freed : arena.free region with
      | error fault => rfl
      | ok next =>
          obtain ⟨allocator, released, rfl⟩ := eq_of_free freed
          exact (Allocator.capacity_of_release? released).1

theorem tiled_applyAll (tiled : arena.allocator.Tiled) (uses : List Use) :
    (arena.applyAll uses).allocator.Tiled ∧
      (arena.applyAll uses).allocator.capacity = arena.allocator.capacity ∧
      (arena.applyAll uses).allocator.alignment = arena.allocator.alignment := by
  induction uses generalizing arena with
  | nil => exact ⟨tiled, rfl, rfl⟩
  | cons use rest ih =>
      obtain ⟨next, capacity, alignment⟩ := tiled_apply tiled use
      obtain ⟨later, sameCapacity, sameAlignment⟩ := ih next
      exact ⟨later, sameCapacity.trans capacity, sameAlignment.trans alignment⟩

/-- A power of two is an alignment, so that an arena is made if the bytes can be asked for. -/
theorem create_of_power (capacity exponent : Nat) :
    Arena.create capacity (2 ^ exponent) =
      if capacity < addressBound then .ok (fresh capacity (2 ^ exponent))
      else .error .unaddressable := by
  have power : isPowerOfTwo (2 ^ exponent) = true := by
    simp [isPowerOfTwo, Nat.log2_two_pow]
  rw [Arena.create, if_pos power, isUnaddressable]
  by_cases small : capacity < addressBound
  · simp [small]
  · simp [small, Nat.le_of_not_lt small]

/-- **An arena stays divided.** For every capacity and every power of two that are words, there is
an arena if the bytes can be asked for. However it is used, its ranges divide the positions below
the capacity, and its operations compute within the words, also for more bytes than can be asked
for. -/
theorem divided_of_uses {capacity exponent : Nat} (word : capacity < wordBound)
    (small : 2 ^ exponent < wordBound) :
    (Arena.create capacity (2 ^ exponent) =
      if capacity < addressBound then .ok (fresh capacity (2 ^ exponent))
      else .error .unaddressable) ∧
    ∀ uses : List Use,
      ((fresh capacity (2 ^ exponent)).applyAll uses).allocator.Divided capacity (2 ^ exponent) ∧
        ((fresh capacity (2 ^ exponent)).applyAll uses).allocator.WithinWords := by
  refine ⟨create_of_power capacity exponent, fun uses => ?_⟩
  have power : IsWordPower (2 ^ exponent) :=
    ⟨exponent, (Nat.pow_lt_pow_iff_right (by omega : 1 < 2)).mp small, rfl⟩
  have fresh : (fresh capacity (2 ^ exponent)).allocator.Tiled :=
    Allocator.tiled_fresh capacity power
  obtain ⟨tiled, same, aligned⟩ := tiled_applyAll fresh uses
  have divided := tiled.divided
  rw [same, aligned] at divided
  refine ⟨divided, tiled.withinWords ?_⟩
  rw [same]
  exact word

/-- The capacity is no multiple of the alignment, a size is far too large, and two of the regions
that are given back were never reserved. -/
def mixedUses : List Use :=
  [.allocate 10, .allocate (2 ^ 64 - 1), .free ⟨5, 3⟩, .allocate 20, .free ⟨0, 1000⟩, .free ⟨0, 1⟩]

theorem divided_of_uses_mixed : ∃ arena, Arena.create 100 (2 ^ 3) = .ok arena ∧
    arena.applyAll mixedUses = ⟨⟨100, 8, [⟨0, 16⟩, ⟨40, 60⟩], [⟨16, 24⟩], 24⟩, .blank⟩ ∧
      (arena.applyAll mixedUses).allocator.Divided 100 (2 ^ 3) ∧
        (arena.applyAll mixedUses).allocator.WithinWords := by
  have word : 100 < wordBound := by decide
  have small : 2 ^ 3 < wordBound := by decide
  obtain ⟨created, divided⟩ := divided_of_uses word small
  exact ⟨fresh 100 (2 ^ 3), created, by decide +kernel, divided mixedUses⟩

end Arena

end LeaseCache
