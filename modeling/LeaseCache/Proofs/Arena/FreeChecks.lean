import LeaseCache.Proofs.Arena.Preview

/-!
# Which regions an arena takes back

A region that is given back is looked up by its offset. Its length only has to keep it
inside of the arena. So an arena takes a region back exactly if it lies inside and begins
where an outstanding region begins, and it then takes that outstanding region back, as a
whole (`free_of_grants`). All other regions are refused with the fault that they have,
which a caller sees as an internal error, and nothing changes.

For a region that is not taken for another one (`NoNamesake`) this is the check that is
wanted: it is taken back exactly if it is outstanding. A region that is given back twice
may be taken for another one. Its place may have been allocated again with another length
in the meantime, and then the second time frees what lies there now
(`frees_other_stale`).
-/

set_option autoImplicit false

namespace LeaseCache

namespace Allocator

variable {allocator : Allocator} {offset : Nat}

/-- A release fails if no reservation begins at the offset. -/
theorem release?_eq_none_iff : allocator.release? offset = none ↔
    ∀ range ∈ allocator.reserved, range.offset ≠ offset := by
  constructor
  · rintro failed range member rfl
    obtain ⟨next, released⟩ := exists_release? member
    rw [failed] at released
    cases released
  · intro elsewhere
    cases released : allocator.release? offset with
    | none => rfl
    | some next =>
        obtain ⟨range, member, same, -⟩ := eq_of_release? released
        exact absurd same (elsewhere range member)

end Allocator

namespace Arena

variable {arena next : Arena} {region other : Region} {regions : List Region}

theorem checkBounds_of_inside (inside : region.stop ≤ arena.capacity) :
    arena.checkBounds region = .ok () := if_pos inside

/-- A region that reaches out of the arena is refused. -/
theorem free_of_outside (outside : arena.capacity < region.stop) :
    arena.free region = .error (.outside region.offset region.length arena.capacity) := by
  rw [Arena.free, checkBounds, if_neg (Nat.not_le_of_lt outside)]
  rfl

/-- A region that begins where nothing is reserved is refused. -/
theorem free_of_unreserved (inside : region.stop ≤ arena.capacity)
    (unreserved : arena.allocator.release? region.offset = none) :
    arena.free region = .error (.unreserved region.offset) := by
  rw [Arena.free, checkBounds_of_inside inside]
  simp only [bind, Except.bind, unreserved]

/-- Inside of the arena the answer depends on the offset alone. -/
theorem free_congr (freed : arena.free region = .ok next) (inside : other.stop ≤ arena.capacity)
    (same : other.offset = region.offset) : arena.free other = .ok next := by
  obtain ⟨allocator, released, rfl⟩ := eq_of_free freed
  rw [← same] at released
  rw [Arena.free, checkBounds_of_inside inside]
  simp only [bind, Except.bind, released]

/-- What is taken back lies inside of the arena. -/
theorem inside_of_free (freed : arena.free region = .ok next) : region.stop ≤ arena.capacity := by
  by_contra outside
  rw [free_of_outside (Nat.lt_of_not_le outside)] at freed
  cases freed

/-- Nothing is reserved at an offset exactly if no held region begins there. -/
theorem Holds.release?_eq_none_iff (holds : arena.Holds regions) {offset : Nat} :
    arena.allocator.release? offset = none ↔ ∀ region ∈ regions, region.offset ≠ offset := by
  rw [Allocator.release?_eq_none_iff]
  constructor
  · intro elsewhere region member
    exact elsewhere (region.padded arena.allocator.alignment) (holds.mem_reserved member)
  · intro elsewhere range member
    obtain ⟨region, held, rfl⟩ := List.mem_map.mp (holds.reserved.mem_iff.mp member)
    exact elsewhere region held

/-- What is taken back begins where a held region begins, and that one is freed. -/
theorem Holds.exists_of_free (holds : arena.Holds regions)
    (freed : arena.free region = .ok next) :
    ∃ other ∈ regions, other.offset = region.offset ∧ arena.free other = .ok next := by
  obtain ⟨allocator, released, -⟩ := eq_of_free freed
  have named : ¬ ∀ other ∈ regions, other.offset ≠ region.offset := by
    rw [← holds.release?_eq_none_iff, released]
    exact Option.some_ne_none allocator
  push Not at named
  obtain ⟨other, held, same⟩ := named
  exact ⟨other, held, same, free_congr freed (holds.inside held) same⟩

/-- A region is taken back exactly if it lies inside and begins where a held one begins. -/
theorem Holds.exists_free_iff (holds : arena.Holds regions) :
    (∃ next, arena.free region = .ok next) ↔
      region.stop ≤ arena.capacity ∧ ∃ other ∈ regions, other.offset = region.offset := by
  constructor
  · rintro ⟨next, freed⟩
    obtain ⟨other, held, same, -⟩ := holds.exists_of_free freed
    exact ⟨inside_of_free freed, other, held, same⟩
  · rintro ⟨inside, other, held, same⟩
    exact ⟨_, free_congr (holds.free_eq held) inside same.symm⟩

/-- A region that is refused reaches out of the arena or begins where nothing is held. -/
theorem Holds.of_free_error (holds : arena.Holds regions) {fault : ArenaFault}
    (refused : arena.free region = .error fault) :
    arena.capacity < region.stop ∧
        fault = .outside region.offset region.length arena.capacity ∨
      (∀ other ∈ regions, other.offset ≠ region.offset) ∧ fault = .unreserved region.offset := by
  rcases Nat.lt_or_ge arena.capacity region.stop with outside | inside
  · rw [free_of_outside outside] at refused
    exact Or.inl ⟨outside, (Except.error.inj refused).symm⟩
  · have elsewhere : ∀ other ∈ regions, other.offset ≠ region.offset := by
      intro other held same
      obtain ⟨next, freed⟩ := holds.exists_free_iff.mpr ⟨inside, other, held, same⟩
      rw [refused] at freed
      cases freed
    rw [free_of_unreserved inside (holds.release?_eq_none_iff.mpr elsewhere)] at refused
    exact Or.inr ⟨elsewhere, (Except.error.inj refused).symm⟩

/-- No outstanding region begins where a region begins and has another length. -/
def NoNamesake (regions : List Region) (region : Region) : Prop :=
  ∀ other ∈ regions, other.offset = region.offset → other.length = region.length

/-- A region that cannot be taken for another one is taken back exactly if it is held. -/
theorem Holds.exists_free_iff_mem (holds : arena.Holds regions)
    (alone : NoNamesake regions region) :
    (∃ next, arena.free region = .ok next) ↔ region ∈ regions := by
  constructor
  · rintro ⟨next, freed⟩
    obtain ⟨other, held, same, -⟩ := holds.exists_of_free freed
    have equal : other = region := by
      rw [Region.mk.injEq]
      exact ⟨same, alone other held same⟩
    exact equal ▸ held
  · intro held
    exact ⟨_, holds.free_eq held⟩

/-- What comes of giving a region back, where `regions` are outstanding. -/
structure ChecksFree (arena : Arena) (regions : List Region) (region : Region) : Prop where
  /-- It is taken back exactly if it lies inside and begins where an outstanding region begins. -/
  accepts : (∃ next, arena.free region = .ok next) ↔
    region.stop ≤ arena.capacity ∧ ∃ other ∈ regions, other.offset = region.offset
  /-- What is freed is the outstanding region. -/
  frees : ∀ next, arena.free region = .ok next → ∃ other ∈ regions,
    other.offset = region.offset ∧ arena.free other = .ok next ∧
      next.Holds (regions.filter fun left => left.offset ≠ other.offset)
  /-- A region that is refused reaches out of the arena or begins elsewhere, and nothing has
  changed. -/
  refuses : ∀ fault, arena.free region = .error fault →
    arena.apply (.free region) = arena ∧
      (arena.capacity < region.stop ∧
          fault = .outside region.offset region.length arena.capacity ∨
        (∀ other ∈ regions, other.offset ≠ region.offset) ∧ fault = .unreserved region.offset)
  /-- A region that cannot be taken for another one is taken back exactly if it is outstanding. -/
  genuine : NoNamesake regions region →
    ((∃ next, arena.free region = .ok next) ↔ region ∈ regions)

/-- **Which regions are taken back.** In every arena that can be reached a region is taken back
exactly if it lies inside of the arena and begins where an outstanding one begins. That outstanding
region is freed. Every other region is refused and changes nothing. So a region that cannot be
taken for another one is taken back exactly if it is outstanding. -/
theorem free_of_grants (grants : Grants arena regions) (region : Region) :
    ChecksFree arena regions region := by
  have holds := grants.holds
  constructor
  · exact holds.exists_free_iff
  · intro next freed
    obtain ⟨other, held, same, also⟩ := holds.exists_of_free freed
    exact ⟨other, held, same, also, holds.free also⟩
  · intro fault refused
    refine ⟨?_, holds.of_free_error refused⟩
    rw [apply, refused]
  · intro alone
    exact holds.exists_free_iff_mem alone

/-- In `gapped` twenty bytes at forty are outstanding. They are taken back, while a part of them,
bytes that were given back before and bytes that reach out of the arena are refused. -/
theorem free_gapped :
    (∃ next, gapped.free ⟨40, 20⟩ = .ok next) ∧
    (gapped.free ⟨48, 8⟩ = .error (.unreserved 48) ∧
      gapped.apply (.free ⟨48, 8⟩) = gapped) ∧
    ¬ (∃ next, gapped.free ⟨0, 40⟩ = .ok next) ∧
    ¬ ∃ next, gapped.free ⟨90, 11⟩ = .ok next := by
  refine ⟨?_, ?_, ?_, ?_⟩
  · rw [(free_of_grants grants_gapped ⟨40, 20⟩).genuine (by simp [NoNamesake])]
    decide
  · have refused : gapped.free ⟨48, 8⟩ = .error (.unreserved 48) := by decide +kernel
    exact ⟨refused, ((free_of_grants grants_gapped ⟨48, 8⟩).refuses _ refused).1⟩
  · rw [(free_of_grants grants_gapped ⟨0, 40⟩).genuine (by simp [NoNamesake])]
    decide
  · rw [(free_of_grants grants_gapped ⟨90, 11⟩).genuine (by simp [NoNamesake])]
    decide

/-- Sixteen bytes are given back twice. In between their place is allocated again with another
length, and the second time frees the region that lies there now. -/
theorem frees_other_stale : ∃ new first freed second last,
    Arena.create 256 8 = .ok new ∧ new.allocate 16 = .ok (⟨0, 16⟩, first) ∧
    first.free ⟨0, 16⟩ = .ok freed ∧ freed.allocate 32 = .ok (⟨0, 32⟩, second) ∧
    Grants second [⟨0, 32⟩] ∧ ⟨0, 16⟩ ∉ [(⟨0, 32⟩ : Region)] ∧
    second.free ⟨0, 16⟩ = .ok last ∧ last.allocator.reserved = [] := by
  have created : Arena.create 256 8 = .ok ⟨.fresh 256 8, .blank⟩ := rfl
  have allocated : Arena.allocate ⟨.fresh 256 8, .blank⟩ 16 = .ok
      (⟨0, 16⟩, ⟨⟨256, 8, [⟨16, 240⟩], [⟨0, 16⟩], 16⟩, .blank⟩) := by decide +kernel
  have given : Arena.free ⟨⟨256, 8, [⟨16, 240⟩], [⟨0, 16⟩], 16⟩, .blank⟩ ⟨0, 16⟩ = .ok
      ⟨.fresh 256 8, .blank⟩ := by decide +kernel
  have again : Arena.allocate ⟨.fresh 256 8, .blank⟩ 32 = .ok
      (⟨0, 32⟩, ⟨⟨256, 8, [⟨32, 224⟩], [⟨0, 32⟩], 32⟩, .blank⟩) := by decide +kernel
  have twice : Arena.free ⟨⟨256, 8, [⟨32, 224⟩], [⟨0, 32⟩], 32⟩, .blank⟩ ⟨0, 16⟩ = .ok
      ⟨.fresh 256 8, .blank⟩ := by decide +kernel
  have grants := (((Grants.created (by decide) created).allocated allocated).freed given).allocated
    again
  exact ⟨_, _, _, _, _, created, allocated, given, again, grants, by decide, twice, rfl⟩

end Arena

end LeaseCache
