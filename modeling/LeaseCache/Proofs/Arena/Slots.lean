import LeaseCache.Proofs.Arena.Gaps
import Mathlib.Data.List.Perm.Subperm

/-!
# Reservations of one length

If all reservations have one length and start at multiples of it, the arena is
cut into slots, and each is reserved or free as a whole (`Slotted`). First fit
keeps it so: a free range starts where the arena or a reservation ends, which is
at a slot (`Slotted.offset_of_free`). Hence nothing is lost between the
reservations, and another one of the same length fits exactly while some slot is
not reserved (`Slotted.fits_iff`). Behind the last slot there may be a rest that
is shorter than a slot and never used.
-/

set_option autoImplicit false

namespace LeaseCache

namespace Allocator

/-- All reservations have the length of a slot and start at a multiple of it. -/
def Slotted (slot : Nat) (allocator : Allocator) : Prop :=
  ∀ range ∈ allocator.reserved, range.length = slot ∧ slot ∣ range.offset

variable {allocator next : Allocator} {slot size offset : Nat} {range : Region}

/-- What has no reservations beyond those of a slotted allocator is slotted. -/
theorem Slotted.of_subset (slotted : allocator.Slotted slot)
    (subset : next.reserved ⊆ allocator.reserved) : next.Slotted slot :=
  fun range member => slotted range (subset member)

/-- A free range starts at a slot. -/
theorem Slotted.offset_of_free (slotted : allocator.Slotted slot) (tiled : allocator.Tiled)
    (member : range ∈ allocator.free) : slot ∣ range.offset := by
  rcases (tiled.isGap_of_mem_free member).starts with zero | ⟨before, reserved, here⟩
  · exact zero ▸ Nat.dvd_zero slot
  · -- The reservation before the range ends where the range starts, because the range is free.
    obtain ⟨length, start⟩ := slotted before reserved
    have ends : before.stop = range.offset := by
      have nonempty := tiled.reserved_pos before reserved
      have vacant := (tiled.isGap_of_mem_free member).vacant range.offset
        (tiled.isGap_of_mem_free member).has_offset
      have : ¬ before.Has range.offset := fun also => vacant ⟨before, reserved, also⟩
      simp only [Region.Has, Region.stop] at *
      omega
    rw [← ends, Region.stop, length]
    exact Nat.dvd_add start (Nat.dvd_refl slot)

/-- **A reservation of the length of a slot takes a slot.** -/
theorem Slotted.allocate (slotted : allocator.Slotted slot) (tiled : allocator.Tiled)
    (length : roundUp size allocator.alignment = slot)
    (taken : allocator.allocate? size = some (offset, next)) : next.Slotted slot := by
  obtain ⟨free, cut, -⟩ := eq_of_allocate? tiled.power taken
  have split := reserved_of_allocate? tiled.power taken
  intro range member
  rcases List.mem_cons.mp (split.mem_iff.mp member) with rfl | old
  · obtain ⟨source, sourceIn, rfl⟩ := exists_offset_of_takeFirst cut
    have start := slotted.offset_of_free tiled sourceIn
    exact ⟨length, start⟩
  · exact slotted range old

theorem Slotted.used_eq (slotted : allocator.Slotted slot) (tiled : allocator.Tiled) :
    allocator.used = allocator.reserved.length * slot := by
  have lengths : ∀ length ∈ allocator.reserved.map Region.length, length = slot := by
    intro length member
    obtain ⟨range, inside, rfl⟩ := List.mem_map.mp member
    exact (slotted range inside).1
  rw [tiled.used_eq, List.eq_replicate_of_mem lengths, List.sum_replicate_nat,
    List.length_map]

/-- With fewer reservations than slots, some slot is not reserved. -/
theorem exists_free_slot (positive : 0 < slot)
    (few : allocator.reserved.length < allocator.capacity / slot) :
    ∃ index < allocator.capacity / slot, ∀ range ∈ allocator.reserved,
      range.offset ≠ index * slot := by
  by_contra! reserved
  have starts : ((List.range (allocator.capacity / slot)).map (· * slot)).Nodup :=
    List.nodup_range.map fun first second same => Nat.eq_of_mul_eq_mul_right positive same
  have among : (List.range (allocator.capacity / slot)).map (· * slot) ⊆
      allocator.reserved.map Region.offset := by
    intro start member
    obtain ⟨index, below, rfl⟩ := List.mem_map.mp member
    obtain ⟨range, inside, same⟩ := reserved index (List.mem_range.mp below)
    exact List.mem_map.mpr ⟨range, inside, same⟩
  have many := (List.subperm_of_subset starts among).length_le
  rw [List.length_map, List.length_range, List.length_map] at many
  omega

/-- A slot that no reservation starts at is vacant. -/
theorem Slotted.vacant (slotted : allocator.Slotted slot) {index position : Nat}
    (free : ∀ range ∈ allocator.reserved, range.offset ≠ index * slot)
    (lower : index * slot ≤ position) (upper : position < index * slot + slot) :
    ¬ Covers allocator.reserved position := by
  rintro ⟨range, member, here⟩
  obtain ⟨length, other, start⟩ := slotted range member
  refine free range member ?_
  simp only [Region.Has, Region.stop, length, start] at here ⊢
  have first : position / slot = index := Nat.div_eq_of_lt_le lower (by rwa [Nat.succ_mul])
  have second : position / slot = other := by
    rw [Nat.mul_comm] at here
    exact Nat.div_eq_of_lt_le here.1 (by rw [Nat.succ_mul]; exact here.2)
  rw [← first, ← second, Nat.mul_comm]

/-- **While some slot is not reserved, and only then, another object fits.** -/
theorem Slotted.fits_iff (slotted : allocator.Slotted slot) (tiled : allocator.Tiled)
    (positive : 0 < size) (length : roundUp size allocator.alignment = slot)
    (word : size + (allocator.alignment - 1) < wordBound) :
    allocator.fits size = true ↔ allocator.reserved.length < allocator.capacity / slot := by
  have slotPos : 0 < slot := by
    have := le_roundUp tiled.power.pos size
    omega
  constructor
  · intro fits
    obtain ⟨start, next, taken⟩ := exists_allocate?_of_fits tiled.power positive fits
    have later := tiled.allocate positive taken
    have used := (slotted.allocate tiled length taken).used_eq later
    rw [(reserved_of_allocate? tiled.power taken).length_eq, List.length_cons] at used
    have within := (used ▸ later.used_le).trans_eq (capacity_of_allocate? taken).1
    exact (Nat.le_div_iff_mul_le slotPos).mpr within
  · intro few
    obtain ⟨index, below, free⟩ := exists_free_slot slotPos few
    have within : index * slot + slot ≤ allocator.capacity := by
      have := Nat.mul_le_of_le_div slot (index + 1) allocator.capacity below
      rwa [Nat.add_one_mul] at this
    obtain ⟨gap, isGap, lower, upper⟩ := exists_isGap_of_vacant
      (Nat.lt_add_of_pos_right slotPos) within fun position lower upper =>
        slotted.vacant free lower upper
    refine (tiled.fits_iff_exists_isGap positive word).mpr ⟨gap, isGap, ?_⟩
    rw [length]
    simp only [Region.stop] at upper
    omega

end Allocator

end LeaseCache
