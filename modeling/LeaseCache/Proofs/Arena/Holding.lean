import LeaseCache.Cache.Evict
import LeaseCache.Proofs.Arena.Memory
import LeaseCache.Proofs.Arena.Tiling

/-!
# Arenas that hold some regions

An arena holds a list of regions when its reservations are, up to order, these
regions with their lengths rounded up. `Arena.Holds` is what the users of an
arena have to know: held regions are disjoint and inside of the arena, reading
and writing them succeeds, giving one back frees exactly it
(`Holds.discard`), and reserving adds one (`Holds.allocate`).
-/

set_option autoImplicit false

namespace LeaseCache

/-- The range that is reserved for a region. -/
def Region.padded (alignment : Nat) (region : Region) : Region :=
  ⟨region.offset, roundUp region.length alignment⟩

namespace Arena

/-- The reservations of an arena are the given regions, rounded up. -/
structure Holds (arena : Arena) (regions : List Region) : Prop where
  tiled : arena.allocator.Tiled
  reserved : arena.allocator.reserved.Perm
    (regions.map (Region.padded arena.allocator.alignment))

variable {arena next : Arena} {region : Region} {regions others : List Region} {size : Nat}

theorem Holds.perm (holds : arena.Holds regions) (same : regions.Perm others) :
    arena.Holds others where
  tiled := holds.tiled
  reserved := holds.reserved.trans (same.map _)

theorem Holds.mem_reserved (holds : arena.Holds regions) (member : region ∈ regions) :
    region.padded arena.allocator.alignment ∈ arena.allocator.reserved :=
  holds.reserved.mem_iff.mpr (List.mem_map_of_mem member)

theorem Holds.length_le (holds : arena.Holds regions) (region : Region) :
    region.length ≤ (region.padded arena.allocator.alignment).length :=
  le_roundUp holds.tiled.power.pos _

theorem Holds.inside (holds : arena.Holds regions) (member : region ∈ regions) :
    region.stop ≤ arena.capacity := by
  have within := holds.tiled.inside _ (holds.mem_reserved member)
  have longer := holds.length_le region
  simp only [Region.stop, Region.padded, capacity] at *
  omega

/-- Held regions are disjoint. -/
theorem Holds.disjoint (holds : arena.Holds regions) : regions.Pairwise Region.Disjoint := by
  have padded := holds.reserved.pairwise holds.tiled.reserved_disjoint Or.symm
  refine (List.pairwise_map.mp padded).imp fun {first second} apart => ?_
  have := holds.length_le first
  have := holds.length_le second
  simp only [Region.Disjoint, Region.stop, Region.padded] at *
  omega

/-- What is used is the sum of the rounded lengths. -/
theorem Holds.used_eq (holds : arena.Holds regions) :
    arena.allocator.used =
      (regions.map fun region => roundUp region.length arena.allocator.alignment).sum := by
  have lengths := (holds.reserved.map Region.length).sum_nat
  rw [List.map_map, ← holds.tiled.used_eq] at lengths
  exact lengths

theorem Holds.used_le (holds : arena.Holds regions) : arena.allocator.used ≤ arena.capacity :=
  holds.tiled.used_le

/-! ## Reading and writing -/

theorem Holds.read (holds : arena.Holds regions) (member : region ∈ regions) :
    arena.read region = .ok (arena.memory.read region.offset region.length) := by
  rw [Arena.read, checkBounds, if_pos (holds.inside member)]
  rfl

theorem Holds.write (holds : arena.Holds regions) (member : region ∈ regions) {data : ByteArray}
    (short : data.size ≤ region.length) :
    arena.write region data =
      .ok { arena with memory := arena.memory.write region.offset data } := by
  rw [Arena.write, checkBounds, if_pos (holds.inside member)]
  simp only [bind, Except.bind, Nat.not_lt_of_le short, if_false]

/-! ## Giving back -/

/-- Giving a held region back is a release at its offset. -/
theorem Holds.discard_eq (holds : arena.Holds regions) (member : region ∈ regions) :
    ∃ allocator, arena.allocator.release? region.offset = some allocator ∧
      arena.discard region = { arena with allocator := allocator } := by
  obtain ⟨allocator, released⟩ := Allocator.exists_release? (holds.mem_reserved member)
  refine ⟨allocator, released, ?_⟩
  have found : arena.allocator.release? region.offset = some allocator := released
  simp only [discard, Arena.free, checkBounds, if_pos (holds.inside member), bind, Except.bind,
    found]

/-- A held region can be given back. -/
theorem Holds.free_eq (holds : arena.Holds regions) (member : region ∈ regions) :
    arena.free region = .ok (arena.discard region) := by
  obtain ⟨allocator, released, same⟩ := holds.discard_eq member
  rw [same, Arena.free, checkBounds, if_pos (holds.inside member)]
  simp only [bind, Except.bind, released]

/-- **Giving a held region back frees it and nothing else.** -/
theorem Holds.discard (holds : arena.Holds (region :: regions)) :
    (arena.discard region).Holds regions := by
  obtain ⟨allocator, released, same⟩ := holds.discard_eq List.mem_cons_self
  obtain ⟨-, alignment⟩ := Allocator.capacity_of_release? released
  obtain ⟨range, offset, split⟩ := holds.tiled.reserved_of_release? released
  have here : range = region.padded arena.allocator.alignment :=
    holds.tiled.eq_of_offset (split.mem_iff.mpr List.mem_cons_self)
      (holds.mem_reserved List.mem_cons_self) offset
  rw [same]
  refine ⟨holds.tiled.release released, ?_⟩
  rw [alignment]
  refine List.Perm.cons_inv (a := range) (split.symm.trans ?_)
  rw [here]
  exact holds.reserved

@[simp] theorem memory_discard (arena : Arena) (region : Region) :
    (arena.discard region).memory = arena.memory := by
  unfold discard Arena.free
  cases arena.checkBounds region with
  | error fault => rfl
  | ok inside =>
      simp only [bind, Except.bind]
      split
      · next freed =>
          split at freed
          · obtain rfl := Except.ok.inj freed
            rfl
          · cases freed
      · rfl

/-- Giving a region back makes no new reservation. -/
theorem reserved_discard (arena : Arena) (region : Region) :
    (arena.discard region).allocator.reserved ⊆ arena.allocator.reserved := by
  unfold discard Arena.free
  cases arena.checkBounds region with
  | error fault => exact List.Subset.refl _
  | ok inside =>
      simp only [bind, Except.bind]
      cases released : arena.allocator.release? region.offset with
      | none => exact List.Subset.refl _
      | some allocator =>
          obtain ⟨range, -, -, rfl⟩ := Allocator.eq_of_release? released
          exact List.filter_subset_self _

theorem Holds.capacity_discard (holds : arena.Holds regions) (member : region ∈ regions) :
    (arena.discard region).allocator.capacity = arena.allocator.capacity ∧
      (arena.discard region).allocator.alignment = arena.allocator.alignment := by
  obtain ⟨allocator, released, same⟩ := holds.discard_eq member
  rw [same]
  exact Allocator.capacity_of_release? released

/-- A size that would fit after a held region is given back fits then. -/
theorem Holds.canAllocate_discard (holds : arena.Holds regions) (member : region ∈ regions)
    (positive : 0 < size) (fits : arena.canAllocateAfterFree size region = true) :
    (arena.discard region).canAllocate size = true := by
  obtain ⟨allocator, released, same⟩ := holds.discard_eq member
  rw [same]
  exact holds.tiled.fits_of_fitsAfterRelease positive fits released

/-! ## Reserving -/

/-- What a successful reservation does. -/
theorem eq_of_allocate (reserved : arena.allocate size = .ok (region, next)) :
    0 < size ∧ region.length = size ∧ ∃ allocator,
      arena.allocator.allocate? size = some (region.offset, allocator) ∧
      next = { arena with allocator := allocator } := by
  unfold Arena.allocate at reserved
  split at reserved
  · cases reserved
  · next nonzero =>
      split at reserved
      · next offset allocator taken =>
          obtain ⟨rfl, rfl⟩ := Prod.mk.inj (Except.ok.inj reserved)
          exact ⟨Nat.pos_of_ne_zero nonzero, rfl, allocator, taken, rfl⟩
      · cases reserved

/-- **Reserving adds a region of the wanted size to those that are held.** -/
theorem Holds.allocate (holds : arena.Holds regions)
    (reserved : arena.allocate size = .ok (region, next)) : next.Holds (region :: regions) := by
  obtain ⟨positive, length, allocator, taken, rfl⟩ := eq_of_allocate reserved
  obtain ⟨-, alignment⟩ := Allocator.capacity_of_allocate? taken
  have added := Allocator.reserved_of_allocate? holds.tiled.power taken
  refine ⟨holds.tiled.allocate positive taken, added.trans ?_⟩
  rw [List.map_cons, Region.padded, alignment, length]
  exact holds.reserved.cons _

theorem capacity_allocate (reserved : arena.allocate size = .ok (region, next)) :
    next.allocator.capacity = arena.allocator.capacity ∧
      next.allocator.alignment = arena.allocator.alignment := by
  obtain ⟨-, -, allocator, taken, rfl⟩ := eq_of_allocate reserved
  exact Allocator.capacity_of_allocate? taken

/-- What fits can be reserved. -/
theorem exists_allocate (power : IsWordPower arena.allocator.alignment) (positive : 0 < size)
    (fits : arena.canAllocate size = true) :
    ∃ region next, arena.allocate size = .ok (region, next) := by
  obtain ⟨offset, allocator, taken⟩ := Allocator.exists_allocate?_of_fits power positive fits
  exact ⟨_, _, by rw [Arena.allocate, if_neg (Nat.ne_of_gt positive), taken]⟩

end Arena

end LeaseCache
