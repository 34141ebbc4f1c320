import LeaseCache.Proofs.Arena.FirstFit

/-!
# Orders of giving regions back

A region that is given back joins the free ranges beside it, so the free ranges on the way
depend on the order in which regions are given back. What is left in the end does not: an
arena is decided by the regions that it holds (`Holds.eq_of_perm`).

So regions can be given back in any order. Without any regions left, the arena is as free
as a new one (`Holds.eq_fresh`), however it had been divided, and giving back what was
allocated last undoes the allocation (`Holds.undo`).
-/

set_option autoImplicit false

namespace LeaseCache

namespace Arena

variable {arena next last : Arena} {region : Region} {regions others chosen rest : List Region}
  {size : Nat}

/-! ## Arenas over the same bytes -/

/-- The bytes, the capacity and the alignment are the same. -/
structure SameGround (arena next : Arena) : Prop where
  memory : next.memory = arena.memory
  capacity : next.allocator.capacity = arena.allocator.capacity
  alignment : next.allocator.alignment = arena.allocator.alignment

theorem SameGround.refl (arena : Arena) : arena.SameGround arena := ⟨rfl, rfl, rfl⟩

theorem SameGround.symm (same : arena.SameGround next) : next.SameGround arena :=
  ⟨same.memory.symm, same.capacity.symm, same.alignment.symm⟩

theorem SameGround.trans (same : arena.SameGround next) (later : next.SameGround last) :
    arena.SameGround last where
  memory := later.memory.trans same.memory
  capacity := later.capacity.trans same.capacity
  alignment := later.alignment.trans same.alignment

theorem sameGround_allocate (allocated : arena.allocate size = .ok (region, next)) :
    arena.SameGround next := by
  obtain ⟨capacity, alignment⟩ := capacity_allocate allocated
  obtain ⟨-, -, allocator, -, rfl⟩ := eq_of_allocate allocated
  exact ⟨rfl, capacity, alignment⟩

theorem Holds.sameGround_discard (holds : arena.Holds regions) (member : region ∈ regions) :
    arena.SameGround (arena.discard region) := by
  obtain ⟨capacity, alignment⟩ := holds.capacity_discard member
  exact ⟨memory_discard arena region, capacity, alignment⟩

/-- **An arena is decided by the regions that it holds.** -/
theorem Holds.eq_of_perm (holds : arena.Holds regions) (also : next.Holds others)
    (ground : arena.SameGround next) (same : regions.Perm others) : next = arena := by
  have reserved := (also.perm same.symm).reserved
  rw [ground.alignment] at reserved
  have allocator := holds.tiled.eq_of_perm also.tiled ground.capacity ground.alignment
    (holds.reserved.trans reserved.symm)
  calc next = ⟨next.allocator, next.memory⟩ := rfl
    _ = ⟨arena.allocator, arena.memory⟩ := by rw [allocator, ground.memory]

/-- An arena that holds nothing is as free as a new one. -/
theorem Holds.eq_fresh (holds : arena.Holds []) :
    arena.allocator = .fresh arena.capacity arena.allocator.alignment := by
  have fresh := Allocator.tiled_fresh arena.capacity holds.tiled.power
  apply fresh.eq_of_perm holds.tiled
  · rfl
  · rfl
  · exact holds.reserved.symm

/-! ## Giving back in a row -/

/-- Gives some regions back, one after the other. The first that is refused ends it. -/
def freeAll (arena : Arena) : List Region → Except ArenaFault Arena
  | [] => .ok arena
  | region :: regions => do
      let next ← arena.free region
      next.freeAll regions

/-- Held regions can be given back in a row, and the others are held then. -/
theorem Holds.freeAll (holds : arena.Holds (chosen ++ rest)) :
    ∃ next, arena.freeAll chosen = .ok next ∧ next.Holds rest ∧ arena.SameGround next := by
  induction chosen generalizing arena with
  | nil => exact ⟨arena, rfl, holds, .refl arena⟩
  | cons region chosen ih =>
      obtain ⟨next, freed, left, ground⟩ := ih holds.discard
      refine ⟨next, ?_, left, ?_⟩
      · rw [Arena.freeAll, holds.free_eq List.mem_cons_self]
        exact freed
      · exact (holds.sameGround_discard List.mem_cons_self).trans ground

/-- Two orders of giving the same regions back end in one arena. -/
theorem Holds.freeAll_perm (holds : arena.Holds regions) (distinct : chosen.Nodup)
    (held : chosen ⊆ regions) {order : List Region} (same : order.Perm chosen) :
    ∃ next, arena.freeAll chosen = .ok next ∧ arena.freeAll order = .ok next := by
  obtain ⟨inner, reordered, among⟩ := List.subperm_of_subset distinct held
  obtain ⟨rest, split⟩ := among.exists_perm_append
  have first := holds.perm (split.trans (reordered.append_right rest))
  have second := first.perm (same.symm.append_right rest)
  obtain ⟨next, freed, left, ground⟩ := first.freeAll
  obtain ⟨other, otherFreed, otherLeft, otherGround⟩ := second.freeAll
  have between := ground.symm.trans otherGround
  have equal := left.eq_of_perm otherLeft between (List.Perm.refl rest)
  exact ⟨next, freed, equal ▸ otherFreed⟩

/-- Giving everything back leaves the arena free. -/
theorem Holds.freeAll_all (holds : arena.Holds regions) {order : List Region}
    (all : order.Perm regions) :
    ∃ next, arena.freeAll order = .ok next ∧
      next.allocator = .fresh arena.capacity arena.allocator.alignment := by
  have ordered : arena.Holds (order ++ []) := by
    rw [List.append_nil]
    exact holds.perm all.symm
  obtain ⟨next, freed, left, ground⟩ := ordered.freeAll
  refine ⟨next, freed, ?_⟩
  rw [left.eq_fresh, capacity, ground.capacity, ground.alignment, capacity]

/-- Giving back what was allocated undoes the allocation. -/
theorem Holds.undo (holds : arena.Holds regions)
    (allocated : arena.allocate size = .ok (region, next)) : next.free region = .ok arena := by
  have held := holds.allocate allocated
  have ground := (sameGround_allocate allocated).trans
    (held.sameGround_discard List.mem_cons_self)
  rw [held.free_eq List.mem_cons_self]
  exact congrArg Except.ok (holds.eq_of_perm held.discard ground (List.Perm.refl regions))

/-- What may be relied on when regions are given back, where `regions` are outstanding. -/
structure FreesCommute (arena : Arena) (regions : List Region) : Prop where
  /-- Two orders of giving the same regions back succeed and end in one arena. -/
  commute : ∀ chosen order : List Region, chosen.Nodup → chosen ⊆ regions → order.Perm chosen →
    ∃ next, arena.freeAll chosen = .ok next ∧ arena.freeAll order = .ok next
  /-- Giving all of them back leaves one free range and no reservation. -/
  empty : 1 ≤ arena.capacity → ∀ order : List Region, order.Perm regions →
    ∃ next, arena.freeAll order = .ok next ∧ next.allocator.free = [⟨0, arena.capacity⟩] ∧
      next.allocator.reserved = [] ∧ next.allocator.used = 0
  /-- Giving back what was allocated undoes the allocation. -/
  undo : ∀ size region next, arena.allocate size = .ok (region, next) →
    next.free region = .ok arena

/-- **Frees commute and undo allocations** in every arena that can be reached. -/
theorem frees_commute (grants : Grants arena regions) : FreesCommute arena regions := by
  have holds := grants.holds
  constructor
  · intro chosen order distinct held same
    exact holds.freeAll_perm distinct held same
  · intro nonempty order all
    obtain ⟨next, freed, fresh⟩ := holds.freeAll_all all
    have some : arena.capacity ≠ 0 := Nat.ne_of_gt nonempty
    refine ⟨next, freed, ?_, ?_, ?_⟩
    · rw [fresh, Allocator.fresh]
      exact if_neg some
    · rw [fresh, Allocator.fresh]
    · rw [fresh, Allocator.fresh]
  · intro size region next allocated
    exact holds.undo allocated

/-- An arena with three reservations that touch and a free tail. -/
def filled : Arena := ⟨⟨100, 8, [⟨72, 28⟩], [⟨0, 16⟩, ⟨16, 24⟩, ⟨40, 32⟩], 72⟩, .blank⟩

theorem grants_filled : Grants filled [⟨40, 30⟩, ⟨16, 20⟩, ⟨0, 10⟩] := by
  have allocated : touching.allocate 30 = .ok (⟨40, 30⟩, filled) := by decide +kernel
  exact grants_touching.allocated allocated

/-- The outer two regions are given back in both orders, then all three, the one in the middle
first. -/
theorem frees_commute_filled :
    (∃ next, filled.freeAll [⟨0, 10⟩, ⟨40, 30⟩] = .ok next ∧
      filled.freeAll [⟨40, 30⟩, ⟨0, 10⟩] = .ok next) ∧
    (∃ next, filled.freeAll [⟨16, 20⟩, ⟨40, 30⟩, ⟨0, 10⟩] = .ok next ∧
      next.allocator.free = [⟨0, 100⟩] ∧ next.allocator.reserved = [] ∧
      next.allocator.used = 0) ∧
    ∃ region next, filled.allocate 20 = .ok (region, next) ∧ next.free region = .ok filled := by
  obtain ⟨commute, empty, undo⟩ := frees_commute grants_filled
  refine ⟨?_, ?_, ?_⟩
  · exact commute _ _ (by decide) (by simp) (by decide)
  · exact empty (by decide) _ (by decide)
  · have allocated : filled.allocate 20 = .ok (⟨72, 20⟩,
        ⟨⟨100, 8, [⟨96, 4⟩], [⟨0, 16⟩, ⟨16, 24⟩, ⟨40, 32⟩, ⟨72, 24⟩], 96⟩, .blank⟩) := by
      decide +kernel
    exact ⟨_, _, allocated, undo _ _ _ allocated⟩

end Arena

end LeaseCache
