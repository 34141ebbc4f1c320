import LeaseCache.Proofs.Arena.FirstFit

/-!
# The longest free range and the largest allocation

An arena gives the length of its longest free range for the largest allocation that would
succeed. It is an upper bound for it. An allocation takes whole multiples of the alignment,
so the largest one has the length of the longest free range rounded down to a multiple
(`largestFree_of_grants`).

The two are the same unless the longest free range ends in the middle of a multiple.
Reservations begin at multiples of the alignment, so only the range at the end of the
arena can do that, and only if the capacity is no multiple of the alignment itself
(`Allocator.Tiled.dvd_largestFree`). Such an arena promises more than it can give from
the start (`not_largestAttained_ragged`).
-/

set_option autoImplicit false

namespace LeaseCache

namespace Allocator

variable {allocator : Allocator} {range : Region}

/-- The longest free range is one of them, unless there are none. -/
theorem exists_longest (positive : 0 < allocator.largestFree) :
    ∃ range ∈ allocator.free, range.length = allocator.largestFree := by
  obtain ⟨range, member, long⟩ := (le_largestFree_iff positive).mp (Nat.le_refl _)
  have short : range.length ≤ allocator.largestFree := by
    apply (le_largestFree_iff (Nat.lt_of_lt_of_le positive long)).mpr
    exact ⟨range, member, Nat.le_refl _⟩
  exact ⟨range, member, Nat.le_antisymm short long⟩

/-- A free range that does not reach the end of the arena ends at a multiple of the alignment. -/
theorem Tiled.dvd_stop (tiled : allocator.Tiled) (member : range ∈ allocator.free) :
    range.stop = allocator.capacity ∨ allocator.alignment ∣ range.stop := by
  have isGap := tiled.isGap_of_mem_free member
  refine isGap.ends.imp_right ?_
  rintro ⟨behind, reserved, here⟩
  -- The position before the end is free, so the reservation behind it begins right there.
  have before : ¬ behind.Has (range.stop - 1) := by
    intro covered
    apply isGap.vacant (range.stop - 1) ?_ ⟨behind, reserved, covered⟩
    have := isGap.nonempty
    simp only [Region.Has, Region.stop]
    omega
  have begins : behind.offset = range.stop := by
    have := isGap.nonempty
    simp only [Region.Has, Region.stop] at *
    omega
  rw [← begins]
  exact (tiled.reserved_aligned behind reserved).1

/-- If the capacity is a multiple of the alignment, so is the longest free range. -/
theorem Tiled.dvd_largestFree (tiled : allocator.Tiled)
    (whole : allocator.alignment ∣ allocator.capacity) :
    allocator.alignment ∣ allocator.largestFree := by
  rcases Nat.eq_zero_or_pos allocator.largestFree with none | positive
  · rw [none]
    exact Nat.dvd_zero _
  · obtain ⟨range, member, same⟩ := exists_longest positive
    have start := tiled.free_aligned range member
    have stop : allocator.alignment ∣ range.stop := by
      rcases tiled.dvd_stop member with last | inner
      · rwa [last]
      · exact inner
    rw [← same]
    exact (Nat.dvd_add_right start).mp stop

end Allocator

namespace Arena

variable {arena : Arena} {regions : List Region} {size : Nat}

/-- The longest free range as it is meant: the largest size for which an allocation succeeds, and
zero if there is none. -/
def LargestAttained (arena : Arena) : Prop :=
  IsGreatest {size | size = 0 ∨ arena.Allocates size} arena.largestFree

/-- What can be allocated is what fits into the longest free range rounded down. -/
theorem Holds.allocates_iff (holds : arena.Holds regions) (word : arena.capacity < wordBound)
    (positive : 0 < size) : arena.Allocates size ↔
      size ≤ arena.largestFree / arena.allocator.alignment * arena.allocator.alignment := by
  have fits := holds.tiled.fits_iff_le word size
  rw [roundUp_le_iff holds.tiled.power.pos] at fits
  exact (canAllocate_iff holds.tiled.power positive).symm.trans fits

/-- The longest free range rounded down is the largest size that can be allocated. -/
theorem Holds.isGreatest (holds : arena.Holds regions) (word : arena.capacity < wordBound) :
    IsGreatest {size | size = 0 ∨ arena.Allocates size}
      (arena.largestFree / arena.allocator.alignment * arena.allocator.alignment) := by
  constructor
  · rcases Nat.eq_zero_or_pos
      (arena.largestFree / arena.allocator.alignment * arena.allocator.alignment) with none | some
    · exact Or.inl none
    · exact Or.inr ((holds.allocates_iff word some).mpr (Nat.le_refl _))
  · rintro size (rfl | allocates)
    · exact Nat.zero_le _
    · obtain ⟨region, next, allocated⟩ := allocates
      obtain ⟨positive, -⟩ := eq_of_allocate allocated
      exact (holds.allocates_iff word positive).mp ⟨region, next, allocated⟩

/-- **The longest free range is the largest allocation exactly if it is a multiple of the
alignment.** It always is if the capacity is a multiple of the alignment. In any reachable arena the
largest allocation is the longest free range rounded down to a multiple, and nothing longer than the
longest free range can be allocated. -/
theorem largestFree_of_grants (grants : Grants arena regions) (word : arena.capacity < wordBound) :
    (arena.LargestAttained ↔ arena.allocator.alignment ∣ arena.largestFree) ∧
    (arena.allocator.alignment ∣ arena.capacity → arena.LargestAttained) ∧
    IsGreatest {size | size = 0 ∨ arena.Allocates size}
      (arena.largestFree / arena.allocator.alignment * arena.allocator.alignment) ∧
    ∀ size, arena.largestFree < size → arena.allocate size = .error (.outOfSpace size) := by
  have holds := grants.holds
  have greatest := holds.isGreatest word
  have exactly : arena.LargestAttained ↔ arena.allocator.alignment ∣ arena.largestFree := by
    constructor
    · intro largest
      rw [largest.unique greatest]
      exact Nat.dvd_mul_left _ _
    · intro whole
      rw [Nat.div_mul_cancel whole] at greatest
      exact greatest
  refine ⟨exactly, ?_, greatest, ?_⟩
  · intro whole
    exact exactly.mpr (holds.tiled.dvd_largestFree whole)
  · intro size long
    cases allocated : arena.allocate size with
    | ok result =>
        have below := greatest.2 (Or.inr ⟨result.1, result.2, allocated⟩)
        have := Nat.div_mul_le_self arena.largestFree arena.allocator.alignment
        omega
    | error error => rw [eq_of_allocate_error (Nat.zero_lt_of_lt long) allocated]

/-- The longest free range of `gapped` is the lower one, which begins and ends at multiples of the
alignment, although the arena itself does not. -/
theorem largestFree_gapped : gapped.largestFree = 40 ∧ gapped.LargestAttained ∧
    gapped.allocate 41 = .error (.outOfSpace 41) := by
  obtain ⟨exactly, -, -, refuses⟩ := largestFree_of_grants grants_gapped (by decide)
  exact ⟨by decide +kernel, exactly.mpr (by decide +kernel), refuses 41 (by decide +kernel)⟩

/-- A new arena of ten bytes with an alignment of eight. -/
def ragged : Arena := ⟨.fresh 10 8, .blank⟩

/-- All ten bytes are free and only eight of them can be allocated. -/
theorem not_largestAttained_ragged : Arena.create 10 8 = .ok ragged ∧ Grants ragged [] ∧
    ragged.largestFree = 10 ∧ ragged.allocate 10 = .error (.outOfSpace 10) ∧
    ¬ ragged.LargestAttained := by
  have created : Arena.create 10 8 = .ok ragged := rfl
  have refused : ragged.allocate 10 = .error (.outOfSpace 10) := by decide +kernel
  have free : ragged.largestFree = 10 := by decide +kernel
  refine ⟨created, .created (by decide) created, free, refused, ?_⟩
  intro largest
  rcases largest.1 with none | ⟨region, next, allocated⟩
  · omega
  · rw [free, refused] at allocated
    cases allocated

end Arena

end LeaseCache
