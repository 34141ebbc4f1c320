import LeaseCache.Proofs.Arena.Preview

/-!
# First fit

An allocation cuts its range from the first free range that is long enough, and an arena
can be asked beforehand whether there is one. The question compares with the longest free
range and the allocation walks along all of them, so the two could disagree, above all on
sizes that have no rounded length within machine words.

They agree in every arena that a user can reach (`firstFit_of_grants`): an allocation
succeeds exactly if the size was said to fit, and exactly if some free range has its
rounded length. It then takes the range of this kind that begins lowest, at its lower end
(`Arena.TakesFirstFit`). Otherwise it is refused for space.
-/

set_option autoImplicit false

namespace LeaseCache

namespace Allocator

variable {allocator : Allocator} {size offset needed : Nat} {ranges rest : List Region}

/-- A cut begins at the lowest of the ranges that are long enough. -/
theorem isLeast_takeFirst (separated : Separated ranges)
    (taken : takeFirst needed ranges = some (offset, rest)) :
    IsLeast {start | ∃ range ∈ ranges, range.offset = start ∧ needed ≤ range.length} offset := by
  obtain ⟨front, range, back, rfl, rfl, enough, short, -⟩ := eq_of_takeFirst taken
  constructor
  · exact ⟨range, by simp, rfl, enough⟩
  · rintro _ ⟨other, member, rfl, long⟩
    rcases List.mem_append.mp member with before | behind
    · exact absurd long (Nat.not_le_of_lt (short other before))
    · rcases List.mem_cons.mp behind with rfl | later
      · exact Nat.le_refl _
      · obtain ⟨-, rising, -⟩ := List.pairwise_append.mp separated
        have apart := (List.pairwise_cons.mp rising).1 other later
        simp only [Region.stop] at apart
        omega

/-- Some free range is long enough exactly if the size fits. -/
theorem Tiled.fits_iff_exists (tiled : allocator.Tiled) (word : allocator.capacity < wordBound)
    (positive : 0 < size) :
    allocator.fits size = true ↔
      ∃ range ∈ allocator.free, roundUp size allocator.alignment ≤ range.length := by
  have longer := le_roundUp tiled.power.pos size
  rw [tiled.fits_iff_le word, le_largestFree_iff (by omega)]

end Allocator

namespace Arena

variable {arena next : Arena} {region : Region} {regions : List Region} {size : Nat}

/-- Whether an allocation of a size succeeds. -/
def Allocates (arena : Arena) (size : Nat) : Prop :=
  ∃ region next, arena.allocate size = .ok (region, next)

/-- What an allocation has done if it gave a region and left an arena. -/
structure TakesFirstFit (arena : Arena) (size : Nat) (region : Region) (next : Arena) : Prop where
  length : region.length = size
  /-- The region begins at the lowest free range that has the rounded size. -/
  first : IsLeast {start | ∃ range ∈ arena.allocator.free, range.offset = start ∧
    roundUp size arena.allocator.alignment ≤ range.length} region.offset
  aligned : arena.allocator.alignment ∣ region.offset
  /-- What is reserved for the region was free. -/
  vacant : ∀ position, (region.padded arena.allocator.alignment).Has position →
    Covers arena.allocator.free position
  /-- The reservations are the old ones and the one for the region. -/
  reserved : next.allocator.reserved.Perm
    (region.padded arena.allocator.alignment :: arena.allocator.reserved)
  /-- Everything else that was free still is. -/
  free : ∀ position, Covers next.allocator.free position ↔
    Covers arena.allocator.free position ∧
      ¬ (region.padded arena.allocator.alignment).Has position
  used : next.allocator.used = arena.allocator.used + roundUp size arena.allocator.alignment
  memory : next.memory = arena.memory

/-- A successful allocation takes the first range that is long enough. -/
theorem Holds.takesFirstFit (holds : arena.Holds regions)
    (allocated : arena.allocate size = .ok (region, next)) :
    arena.TakesFirstFit size region next := by
  obtain ⟨positive, rfl, allocator, taken, rfl⟩ := eq_of_allocate allocated
  have tiled := holds.tiled
  obtain ⟨free, cut, made⟩ := Allocator.eq_of_allocate? tiled.power taken
  have least := Allocator.isLeast_takeFirst tiled.separated cut
  constructor
  case length => rfl
  case first => exact least
  case aligned =>
    obtain ⟨range, member, same, -⟩ := least.1
    rw [← same]
    exact tiled.free_aligned range member
  case vacant =>
    intro position here
    exact Allocator.covers_of_takeFirst cut here
  case reserved => exact Allocator.reserved_of_allocate? tiled.power taken
  case free =>
    intro position
    rw [made]
    exact Allocator.covers_takeFirst tiled.separated cut position
  case used => rw [made]
  case memory => rfl

/-- An allocation that is refused had no room. -/
theorem eq_of_allocate_error {error : CacheError} (positive : 0 < size)
    (refused : arena.allocate size = .error error) : error = .outOfSpace size := by
  rw [Arena.allocate, if_neg (Nat.ne_of_gt positive)] at refused
  split at refused
  · cases refused
  · exact (Except.error.inj refused).symm

/-- **First fit, exactly when it fits.** In every arena that can be reached and whose capacity is a
machine word, an allocation succeeds exactly if the arena says that the size fits, which is if some
free range has the rounded size. It takes the lowest such range at its lower end and leaves all else
alone. If there is none, it is refused for space and nothing has changed. -/
theorem firstFit_of_grants (grants : Grants arena regions) (word : arena.capacity < wordBound)
    {size : Nat} (positive : 1 ≤ size) :
    (arena.Allocates size ↔ arena.canAllocate size = true) ∧
    (arena.canAllocate size = true ↔
      ∃ range ∈ arena.allocator.free, roundUp size arena.allocator.alignment ≤ range.length) ∧
    (∀ region next, arena.allocate size = .ok (region, next) →
      arena.TakesFirstFit size region next) ∧
    ∀ error, arena.allocate size = .error error →
      error = .outOfSpace size ∧ arena.apply (.allocate size) = arena := by
  have holds := grants.holds
  refine ⟨?_, ?_, ?_, ?_⟩
  · exact (canAllocate_iff holds.tiled.power positive).symm
  · exact holds.tiled.fits_iff_exists word positive
  · intro region next allocated
    exact holds.takesFirstFit allocated
  · intro error refused
    refine ⟨eq_of_allocate_error positive refused, ?_⟩
    rw [apply, refused]

/-- An arena with two reservations that touch and a free tail. -/
def touching : Arena := ⟨⟨100, 8, [⟨40, 60⟩], [⟨0, 16⟩, ⟨16, 24⟩], 40⟩, .blank⟩

theorem grants_touching : Grants touching [⟨16, 20⟩, ⟨0, 10⟩] := by
  have created : Arena.create 100 8 = .ok ⟨.fresh 100 8, .blank⟩ := rfl
  have first : Arena.allocate ⟨.fresh 100 8, .blank⟩ 10 = .ok
      (⟨0, 10⟩, ⟨⟨100, 8, [⟨16, 84⟩], [⟨0, 16⟩], 16⟩, .blank⟩) := by decide +kernel
  have second : Arena.allocate ⟨⟨100, 8, [⟨16, 84⟩], [⟨0, 16⟩], 16⟩, .blank⟩ 20 = .ok
      (⟨16, 20⟩, touching) := by decide +kernel
  exact ((Grants.created (by decide) created).allocated first).allocated second

/-- An arena whose first free range is shorter than the second, which ends where the arena does. -/
def holed : Arena := ⟨⟨100, 8, [⟨0, 16⟩, ⟨40, 60⟩], [⟨16, 24⟩], 24⟩, .blank⟩

theorem grants_holed : Grants holed [⟨16, 20⟩] := by
  have freed : touching.free ⟨0, 10⟩ = .ok holed := by decide +kernel
  exact grants_touching.freed freed

/-- The first free range is passed over for seventeen bytes, and there is no room for fifty-seven,
which would need sixty-four, nor for a size that cannot be rounded up within machine words. -/
theorem firstFit_holed :
    (∃ next, holed.allocate 17 = .ok (⟨40, 17⟩, next) ∧ holed.TakesFirstFit 17 ⟨40, 17⟩ next) ∧
    (¬ holed.Allocates 57 ∧ holed.apply (.allocate 57) = holed) ∧
    ¬ holed.Allocates (2 ^ 64 - 1) := by
  have word : holed.capacity < wordBound := by decide
  refine ⟨?_, ⟨?_, ?_⟩, ?_⟩
  · obtain ⟨-, -, takes, -⟩ := firstFit_of_grants grants_holed word (show 1 ≤ 17 by decide)
    have allocated : holed.allocate 17 = .ok (⟨40, 17⟩,
        ⟨⟨100, 8, [⟨0, 16⟩, ⟨64, 36⟩], [⟨16, 24⟩, ⟨40, 24⟩], 48⟩, .blank⟩) := by decide +kernel
    exact ⟨_, allocated, takes _ _ allocated⟩
  · obtain ⟨agrees, -⟩ := firstFit_of_grants grants_holed word (show 1 ≤ 57 by decide)
    rw [agrees]
    decide +kernel
  · obtain ⟨-, -, -, refuses⟩ := firstFit_of_grants grants_holed word (show 1 ≤ 57 by decide)
    exact (refuses (.outOfSpace 57) (by decide +kernel)).2
  · obtain ⟨agrees, -⟩ := firstFit_of_grants grants_holed word (show 1 ≤ 2 ^ 64 - 1 by decide)
    rw [agrees]
    decide +kernel

end Arena

end LeaseCache
