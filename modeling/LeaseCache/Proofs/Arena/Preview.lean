import LeaseCache.Proofs.Arena.Division
import LeaseCache.Proofs.Arena.Gaps

/-!
# The preview of a free

An arena can be asked whether a size would fit after a region is given back. The answer
is worked out beside the free ranges, which it leaves alone, so it could drift from what
giving back does.

It does not. In an arena that a user has worked with in any way (`Arena.Grants`), giving
back an outstanding region succeeds, and the preview is yes exactly if an allocation of
the size succeeds in the arena that this leaves. For a region that is not reserved the
preview is the answer for the arena as it stands (`canAllocateAfterFree_of_grants`).
-/

set_option autoImplicit false

namespace LeaseCache

namespace Allocator

variable {allocator next : Allocator} {size offset : Nat}

/-- Without a reservation at the offset nothing is added to what fits now. -/
theorem fitsAfterRelease_of_unreserved (unreserved : allocator.reservation? offset = none)
    (size : Nat) : allocator.fitsAfterRelease size offset = allocator.fits size := by
  unfold fitsAfterRelease fits
  cases allocator.reservedLength? size with
  | none => rfl
  | some needed =>
      dsimp only
      rw [unreserved]
      by_cases short : needed ≤ allocator.largestFree
      · simp [short]
      · simp [short]

/-- A preview is the answer after the release. -/
theorem Tiled.fitsAfterRelease_eq (tiled : allocator.Tiled) (positive : 0 < size)
    (released : allocator.release? offset = some next) :
    allocator.fitsAfterRelease size offset = next.fits size := by
  apply Bool.eq_iff_iff.mpr
  constructor
  · intro foreseen
    exact tiled.fits_of_fitsAfterRelease positive foreseen released
  · intro fits
    exact tiled.fitsAfterRelease_of_fits positive released fits

end Allocator

namespace Arena

/-- The arenas that can be reached from new ones, each with the regions that were allocated in it
and have not been given back since. A region is given back by its offset, whatever its length.
What fails changes nothing. -/
inductive Grants : Arena → List Region → Prop where
  | created {capacity alignment : Nat} {arena : Arena} (word : alignment < wordBound)
      (created : Arena.create capacity alignment = .ok arena) : Grants arena []
  | allocated {arena next : Arena} {regions : List Region} {region : Region} {size : Nat}
      (earlier : Grants arena regions) (allocated : arena.allocate size = .ok (region, next)) :
      Grants next (region :: regions)
  | freed {arena next : Arena} {regions : List Region} {region : Region}
      (earlier : Grants arena regions) (freed : arena.free region = .ok next) :
      Grants next (regions.filter fun other => other.offset ≠ region.offset)
  | written {arena next : Arena} {regions : List Region} {region : Region} {data : ByteArray}
      (earlier : Grants arena regions) (written : arena.write region data = .ok next) :
      Grants next regions

variable {arena next : Arena} {region : Region} {regions : List Region} {size : Nat}

/-- A write leaves the reservations alone. -/
theorem allocator_of_write {data : ByteArray} (written : arena.write region data = .ok next) :
    next.allocator = arena.allocator := by
  unfold Arena.write at written
  cases inside : arena.checkBounds region with
  | error fault =>
      rw [inside] at written
      cases written
  | ok _ =>
      rw [inside] at written
      simp only [bind, Except.bind] at written
      split at written
      · cases written
      · obtain rfl := Except.ok.inj written
        rfl

/-- A region that is given back, whether it is held or not, frees the reservation at its offset and
leaves the held regions at other offsets. -/
theorem Holds.free (holds : arena.Holds regions) (freed : arena.free region = .ok next) :
    next.Holds (regions.filter fun other => other.offset ≠ region.offset) := by
  obtain ⟨allocator, released, rfl⟩ := eq_of_free freed
  obtain ⟨-, alignment⟩ := Allocator.capacity_of_release? released
  obtain ⟨range, -, -, same⟩ := Allocator.eq_of_release? released
  refine ⟨holds.tiled.release released, ?_⟩
  have left := holds.reserved.filter fun other => other.offset ≠ region.offset
  rw [List.filter_map] at left
  rw [alignment, same]
  exact left

/-- The outstanding regions are the ones that the arena holds. -/
theorem Grants.holds (grants : Grants arena regions) : arena.Holds regions := by
  induction grants with
  | @created capacity alignment arena word created =>
      obtain ⟨power, -, rfl⟩ := create_eq_ok_iff.mp created
      have tiled := Allocator.tiled_fresh capacity (isWordPower_of_isPowerOfTwo power word)
      exact ⟨tiled, .refl _⟩
  | allocated _ allocated ih => exact ih.allocate allocated
  | freed _ freed ih => exact ih.free freed
  | written _ written ih =>
      have same := allocator_of_write written
      exact ⟨same ▸ ih.tiled, same ▸ ih.reserved⟩

/-- An allocation succeeds exactly if the arena says that the size fits. -/
theorem canAllocate_iff (power : IsWordPower arena.allocator.alignment) (positive : 0 < size) :
    arena.canAllocate size = true ↔ ∃ region next, arena.allocate size = .ok (region, next) := by
  constructor
  · intro fits
    exact exists_allocate power positive fits
  · rintro ⟨region, next, allocated⟩
    obtain ⟨-, -, allocator, taken, -⟩ := eq_of_allocate allocated
    exact Allocator.fits_of_allocate? power positive taken

/-- A held region can be given back, and the preview for it is the answer of the arena that this
leaves. -/
theorem Holds.preview (holds : arena.Holds regions) (member : region ∈ regions) :
    ∃ freed, arena.free region = .ok freed ∧ IsWordPower freed.allocator.alignment ∧
      ∀ size, 0 < size → arena.canAllocateAfterFree size region = freed.canAllocate size := by
  obtain ⟨allocator, released, same⟩ := holds.discard_eq member
  have given := holds.free_eq member
  rw [same] at given
  refine ⟨_, given, (holds.tiled.release released).power, ?_⟩
  intro size positive
  exact holds.tiled.fitsAfterRelease_eq positive released

/-- **The preview of a free agrees with the free.** For an outstanding region it is yes exactly if
an allocation of the size succeeds once the region is given back. For a region whose offset is not
reserved it is the answer for the arena as it stands. -/
theorem canAllocateAfterFree_of_grants (grants : Grants arena regions) :
    (∀ region ∈ regions, ∃ freed, arena.free region = .ok freed ∧ ∀ size, 1 ≤ size →
      (arena.canAllocateAfterFree size region = true ↔
        ∃ taken next, freed.allocate size = .ok (taken, next))) ∧
    ∀ region : Region,
      (∀ range ∈ arena.allocator.reserved, range.offset ≠ region.offset) →
        ∀ size, arena.canAllocateAfterFree size region = arena.canAllocate size := by
  constructor
  · intro region member
    obtain ⟨freed, given, power, preview⟩ := grants.holds.preview member
    refine ⟨freed, given, ?_⟩
    intro size positive
    rw [preview size positive]
    exact canAllocate_iff power positive
  · intro region unreserved size
    apply Allocator.fitsAfterRelease_of_unreserved
    apply List.find?_eq_none.mpr
    intro range member
    simpa using unreserved range member

/-- An arena in which the range in the middle is reserved, between two free ones. -/
def gapped : Arena := ⟨⟨100, 8, [⟨0, 40⟩, ⟨64, 36⟩], [⟨40, 24⟩], 24⟩, .blank⟩

theorem grants_gapped : Grants gapped [⟨40, 20⟩] := by
  have first : Arena.create 100 8 = .ok ⟨.fresh 100 8, .blank⟩ := rfl
  have second : Arena.allocate ⟨.fresh 100 8, .blank⟩ 40 = .ok
      (⟨0, 40⟩, ⟨⟨100, 8, [⟨40, 60⟩], [⟨0, 40⟩], 40⟩, .blank⟩) := by decide +kernel
  have third : Arena.allocate ⟨⟨100, 8, [⟨40, 60⟩], [⟨0, 40⟩], 40⟩, .blank⟩ 20 = .ok
      (⟨40, 20⟩, ⟨⟨100, 8, [⟨64, 36⟩], [⟨0, 40⟩, ⟨40, 24⟩], 64⟩, .blank⟩) := by decide +kernel
  have last : Arena.free ⟨⟨100, 8, [⟨64, 36⟩], [⟨0, 40⟩, ⟨40, 24⟩], 64⟩, .blank⟩ ⟨0, 1⟩ =
      .ok gapped := by decide +kernel
  have allocated := ((Grants.created (by decide) first).allocated second).allocated third
  exact allocated.freed last

/-- Both neighbours of the reserved range count: ninety-six bytes are foreseen and fit, while only
forty fit as it stands. -/
theorem canAllocateAfterFree_gapped : ∃ freed, gapped.free ⟨40, 20⟩ = .ok freed ∧
    (∃ taken next, freed.allocate 96 = .ok (taken, next)) ∧
    gapped.canAllocate 41 = false ∧
    gapped.canAllocateAfterFree 41 ⟨39, 1⟩ = gapped.canAllocate 41 := by
  obtain ⟨outstanding, elsewhere⟩ := canAllocateAfterFree_of_grants grants_gapped
  obtain ⟨freed, given, preview⟩ := outstanding ⟨40, 20⟩ (by simp)
  refine ⟨freed, given, ?_, by decide +kernel, ?_⟩
  · exact (preview 96 (by decide)).mp (by decide +kernel)
  · exact elsewhere ⟨39, 1⟩ (by simp [gapped]) 41

end Arena

end LeaseCache
