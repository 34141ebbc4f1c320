import LeaseCache.Proofs.Arena.Ranges
import LeaseCache.Proofs.Arena.Rounding
import Mathlib.Data.List.Nodup

/-!
# The tiling of an arena

An allocator divides the positions below its capacity: a position is free
exactly when no reservation covers it. `Allocator.Tiled` states this together
with the shape of the two lists of ranges. Reserving and releasing preserve it
(`Tiled.allocate`, `Tiled.release`).

In a tiling the tests for room are right: what `fits` can be reserved
(`exists_allocate?_of_fits`), and what `fitsAfterRelease` fits once the
reservation is released (`Tiled.fits_of_fitsAfterRelease`). Within machine words a
size fits exactly if its rounded length is no longer than the longest free range
(`Tiled.fits_iff_le`).
-/

set_option autoImplicit false

namespace LeaseCache

namespace Allocator

/-- The free and the reserved ranges divide the positions below the capacity. -/
structure Tiled (allocator : Allocator) : Prop where
  power : IsWordPower allocator.alignment
  separated : Separated allocator.free
  ordered : Ordered allocator.reserved
  free_pos : ∀ range ∈ allocator.free, 0 < range.length
  reserved_pos : ∀ range ∈ allocator.reserved, 0 < range.length
  inside : ∀ range ∈ allocator.reserved, range.stop ≤ allocator.capacity
  free_aligned : ∀ range ∈ allocator.free, allocator.alignment ∣ range.offset
  reserved_aligned : ∀ range ∈ allocator.reserved,
    allocator.alignment ∣ range.offset ∧ allocator.alignment ∣ range.length
  covers : ∀ position, Covers allocator.free position ↔
    position < allocator.capacity ∧ ¬ Covers allocator.reserved position
  used_eq : allocator.used = (allocator.reserved.map Region.length).sum

theorem of_mem_free_fresh {capacity alignment : Nat} {range : Region}
    (member : range ∈ (fresh capacity alignment).free) : capacity ≠ 0 ∧ range = ⟨0, capacity⟩ := by
  unfold fresh at member
  dsimp only at member
  split at member
  · cases member
  · next some => exact ⟨some, List.mem_singleton.mp member⟩

theorem tiled_fresh (capacity : Nat) {alignment : Nat} (power : IsWordPower alignment) :
    (fresh capacity alignment).Tiled where
  power := power
  separated := by
    unfold fresh
    dsimp only
    split
    · exact List.Pairwise.nil
    · exact List.pairwise_singleton _ _
  ordered := List.Pairwise.nil
  free_pos := by
    intro range member
    obtain ⟨some, rfl⟩ := of_mem_free_fresh member
    exact Nat.pos_of_ne_zero some
  reserved_pos := by simp [fresh]
  inside := by simp [fresh]
  free_aligned := by
    intro range member
    obtain ⟨-, rfl⟩ := of_mem_free_fresh member
    exact Nat.dvd_zero _
  reserved_aligned := by simp [fresh]
  covers := by
    intro position
    unfold fresh
    dsimp only
    split
    · next none => simp [none]
    · simp [Region.Has, Region.stop]
  used_eq := rfl

variable {allocator next : Allocator} {size offset : Nat}

/-- Reservations are disjoint. -/
theorem Tiled.reserved_disjoint (tiled : allocator.Tiled) :
    allocator.reserved.Pairwise Region.Disjoint :=
  tiled.ordered.imp Or.inl

theorem Tiled.used_le (tiled : allocator.Tiled) : allocator.used ≤ allocator.capacity := by
  have bound := sum_length_le tiled.ordered (Nat.zero_le _) (fun _ _ => Nat.zero_le _) tiled.inside
  rwa [Nat.zero_add, ← tiled.used_eq] at bound

/-! ## Reserving -/

/-- What a reservation is made of. -/
theorem eq_of_allocate? (power : IsWordPower allocator.alignment)
    (taken : allocator.allocate? size = some (offset, next)) :
    ∃ free, takeFirst (roundUp size allocator.alignment) allocator.free = some (offset, free) ∧
      next = { allocator with
        free := free
        reserved := insertOrdered ⟨offset, roundUp size allocator.alignment⟩
          allocator.reserved
        used := allocator.used + roundUp size allocator.alignment } := by
  obtain ⟨needed, length, rest⟩ := Option.bind_eq_some_iff.mp taken
  obtain ⟨⟨start, free⟩, cut, made⟩ := Option.bind_eq_some_iff.mp rest
  obtain ⟨-, rfl⟩ := (reservedLength?_eq_some_iff power).mp length
  obtain ⟨rfl, rfl⟩ := Prod.mk.inj (Option.some.inj made)
  exact ⟨free, cut, rfl⟩

theorem capacity_of_allocate? (taken : allocator.allocate? size = some (offset, next)) :
    next.capacity = allocator.capacity ∧ next.alignment = allocator.alignment := by
  obtain ⟨needed, -, rest⟩ := Option.bind_eq_some_iff.mp taken
  obtain ⟨⟨start, free⟩, -, made⟩ := Option.bind_eq_some_iff.mp rest
  obtain ⟨rfl, rfl⟩ := Prod.mk.inj (Option.some.inj made)
  exact ⟨rfl, rfl⟩

/-- The reservations after a reservation are the old ones and the new one. -/
theorem reserved_of_allocate? (power : IsWordPower allocator.alignment)
    (taken : allocator.allocate? size = some (offset, next)) :
    next.reserved.Perm (⟨offset, roundUp size allocator.alignment⟩ :: allocator.reserved) := by
  obtain ⟨free, -, rfl⟩ := eq_of_allocate? power taken
  exact insertOrdered_perm _ _

/-- A new reservation is apart from the old ones and inside of the capacity. -/
theorem Tiled.apart_of_takeFirst (tiled : allocator.Tiled) {needed : Nat} {free : List Region}
    (positive : 0 < needed) (cut : takeFirst needed allocator.free = some (offset, free)) :
    (∀ range ∈ allocator.reserved, (⟨offset, needed⟩ : Region).Disjoint range) ∧
      offset + needed ≤ allocator.capacity := by
  have vacant : ∀ position, (⟨offset, needed⟩ : Region).Has position →
      position < allocator.capacity ∧ ¬ Covers allocator.reserved position := fun position here =>
    (tiled.covers position).mp (covers_of_takeFirst cut here)
  constructor
  · intro range member
    refine Region.disjoint_of_not_has positive (tiled.reserved_pos range member) ?_
    intro position here there
    exact (vacant position here).2 ⟨range, member, there⟩
  · have last := (vacant (offset + needed - 1) (by simp only [Region.Has, Region.stop]; omega)).1
    omega

/-- **Reserving preserves the tiling.** -/
theorem Tiled.allocate (tiled : allocator.Tiled) (positive : 0 < size)
    (taken : allocator.allocate? size = some (offset, next)) : next.Tiled := by
  obtain ⟨free, cut, rfl⟩ := eq_of_allocate? tiled.power taken
  have longer := le_roundUp tiled.power.pos size
  obtain ⟨apart, within⟩ := tiled.apart_of_takeFirst (by omega) cut
  have members : ∀ {range : Region},
      range ∈ insertOrdered ⟨offset, roundUp size allocator.alignment⟩ allocator.reserved →
        range = ⟨offset, roundUp size allocator.alignment⟩ ∨ range ∈ allocator.reserved :=
    fun member => List.mem_cons.mp ((insertOrdered_perm _ _).mem_iff.mp member)
  obtain ⟨source, sourceMember, sourceOffset⟩ := exists_offset_of_takeFirst cut
  have aligned : allocator.alignment ∣ offset :=
    sourceOffset ▸ tiled.free_aligned source sourceMember
  refine
    { power := tiled.power
      separated := separated_takeFirst tiled.separated cut
      ordered := ordered_insertOrdered tiled.ordered (by dsimp only; omega) apart
      free_pos := ?_, reserved_pos := ?_, inside := ?_, free_aligned := ?_
      reserved_aligned := ?_, covers := ?_, used_eq := ?_ }
  · intro range member
    rcases mem_of_takeFirst cut member with old | ⟨-, nonempty⟩
    · exact tiled.free_pos range old
    · exact nonempty
  · intro range member
    rcases members member with rfl | old
    · dsimp only
      omega
    · exact tiled.reserved_pos range old
  · intro range member
    rcases members member with rfl | old
    · exact within
    · exact tiled.inside range old
  · intro range member
    rcases mem_of_takeFirst cut member with old | ⟨start, -⟩
    · exact tiled.free_aligned range old
    · exact start ▸ Nat.dvd_add aligned (dvd_roundUp _ _)
  · intro range member
    rcases members member with rfl | old
    · exact ⟨aligned, dvd_roundUp _ _⟩
    · exact tiled.reserved_aligned range old
  · intro position
    rw [covers_takeFirst tiled.separated cut, covers_perm (insertOrdered_perm _ _), covers_cons,
      tiled.covers]
    grind
  · rw [((insertOrdered_perm _ _).map Region.length).sum_nat, List.map_cons, List.sum_cons,
      ← tiled.used_eq, Nat.add_comm]

/-! ## Releasing -/

/-- No two reservations begin at one offset. -/
theorem Tiled.eq_of_offset (tiled : allocator.Tiled) {range other : Region}
    (member : range ∈ allocator.reserved) (otherMember : other ∈ allocator.reserved)
    (same : range.offset = other.offset) : range = other := by
  by_contra different
  have := tiled.reserved_disjoint.forall member otherMember different
  have := tiled.reserved_pos range member
  have := tiled.reserved_pos other otherMember
  simp only [Region.Disjoint, Region.stop] at *
  omega

theorem Tiled.reserved_nodup (tiled : allocator.Tiled) : allocator.reserved.Nodup := by
  refine tiled.ordered.imp_of_mem fun member _ before same => ?_
  have := tiled.reserved_pos _ member
  simp only [same, Region.stop] at *
  omega

/-- A free range meets no reservation. -/
theorem Tiled.free_disjoint (tiled : allocator.Tiled) {range free : Region}
    (member : range ∈ allocator.reserved) (freeMember : free ∈ allocator.free) :
    range.Disjoint free := by
  refine Region.disjoint_of_not_has (tiled.reserved_pos range member)
    (tiled.free_pos free freeMember) ?_
  intro position here there
  exact ((tiled.covers position).mp ⟨free, freeMember, there⟩).2 ⟨range, member, here⟩

/-- The reservations are the one at an offset and those elsewhere. -/
theorem Tiled.reserved_perm (tiled : allocator.Tiled) {range : Region}
    (member : range ∈ allocator.reserved) :
    allocator.reserved.Perm
      (range :: allocator.reserved.filter fun other => other.offset ≠ range.offset) := by
  have same : allocator.reserved.filter (fun other => other.offset ≠ range.offset) =
      allocator.reserved.erase range := by
    rw [tiled.reserved_nodup.erase_eq_filter]
    refine List.filter_congr fun other otherMember => ?_
    by_cases equal : other.offset = range.offset
    · simp [tiled.eq_of_offset otherMember member equal]
    · have : other ≠ range := fun same => equal (congrArg Region.offset same)
      simp [equal, this]
  rw [same]
  exact List.perm_cons_erase member

/-- A release finds the reservation at its offset. -/
theorem eq_of_release? (released : allocator.release? offset = some next) :
    ∃ range ∈ allocator.reserved, range.offset = offset ∧
      next = { allocator with
        free := giveBack range allocator.free
        reserved := allocator.reserved.filter fun other => other.offset ≠ offset
        used := allocator.used - range.length } := by
  obtain ⟨range, found, made⟩ := Option.bind_eq_some_iff.mp released
  obtain rfl := Option.some.inj made
  refine ⟨range, List.mem_of_find?_eq_some found, ?_, rfl⟩
  simpa using List.find?_some found

/-- A reservation can be released at its offset. -/
theorem exists_release? {range : Region} (member : range ∈ allocator.reserved) :
    ∃ next, allocator.release? range.offset = some next := by
  have found : (allocator.reservation? range.offset).isSome := by
    rw [reservation?, List.find?_isSome]
    exact ⟨range, member, by simp⟩
  obtain ⟨other, here⟩ := Option.isSome_iff_exists.mp found
  exact ⟨_, by rw [release?, here]; rfl⟩

/-- **Releasing preserves the tiling.** -/
theorem Tiled.release (tiled : allocator.Tiled) (released : allocator.release? offset = some next) :
    next.Tiled := by
  obtain ⟨range, member, rfl, rfl⟩ := eq_of_release? released
  have nonempty := tiled.reserved_pos range member
  have split := tiled.reserved_perm member
  have kept : ∀ {other : Region},
      other ∈ allocator.reserved.filter (fun other => other.offset ≠ range.offset) →
        other ∈ allocator.reserved := fun inside => List.mem_of_mem_filter inside
  have apartFree : ∀ other ∈ allocator.free, range.Disjoint other := fun other otherMember =>
    tiled.free_disjoint member otherMember
  have apartReserved : ∀ other ∈ allocator.reserved.filter
      (fun other => other.offset ≠ range.offset), range.Disjoint other :=
    (List.pairwise_cons.mp (split.pairwise tiled.reserved_disjoint Or.symm)).1
  refine
    { power := tiled.power
      separated := separated_giveBack tiled.separated nonempty apartFree
      ordered := List.Pairwise.filter _ tiled.ordered
      free_pos := ?_, reserved_pos := fun other inside => tiled.reserved_pos other (kept inside)
      inside := fun other inside => tiled.inside other (kept inside), free_aligned := ?_
      reserved_aligned := fun other inside => tiled.reserved_aligned other (kept inside)
      covers := ?_, used_eq := ?_ }
  · intro joined inside
    obtain ⟨source, sourceMember, -, longer⟩ := mem_giveBack inside
    rcases List.mem_cons.mp sourceMember with rfl | old
    · omega
    · have := tiled.free_pos source old
      omega
  · intro joined inside
    obtain ⟨source, sourceMember, start, -⟩ := mem_giveBack inside
    rw [start]
    rcases List.mem_cons.mp sourceMember with rfl | old
    · exact (tiled.reserved_aligned source member).1
    · exact tiled.free_aligned source old
  · intro position
    have below : range.Has position → position < allocator.capacity := fun here =>
      Nat.lt_of_lt_of_le here.2 (tiled.inside range member)
    have alone : range.Has position → ¬ Covers (allocator.reserved.filter
        fun other => other.offset ≠ range.offset) position := by
      rintro here ⟨other, otherMember, there⟩
      exact (apartReserved other otherMember).not_has here there
    rw [covers_giveBack, tiled.covers, covers_perm split, covers_cons]
    grind
  · rw [tiled.used_eq, (split.map Region.length).sum_nat, List.map_cons, List.sum_cons,
      Nat.add_sub_cancel_left]

theorem capacity_of_release? (released : allocator.release? offset = some next) :
    next.capacity = allocator.capacity ∧ next.alignment = allocator.alignment := by
  obtain ⟨_, _, _, rfl⟩ := eq_of_release? released
  exact ⟨rfl, rfl⟩

/-- The reservations before a release are the released one and the ones after. -/
theorem Tiled.reserved_of_release? (tiled : allocator.Tiled)
    (released : allocator.release? offset = some next) :
    ∃ range, range.offset = offset ∧ allocator.reserved.Perm (range :: next.reserved) := by
  obtain ⟨range, member, rfl, rfl⟩ := eq_of_release? released
  exact ⟨range, rfl, tiled.reserved_perm member⟩

/-! ## Room -/

theorem le_foldl_max {needed start : Nat} {lengths : List Nat} :
    needed ≤ lengths.foldl max start ↔ needed ≤ start ∨ ∃ length ∈ lengths, needed ≤ length := by
  induction lengths generalizing start with
  | nil => simp
  | cons length rest ih =>
      rw [List.foldl_cons, ih, List.exists_mem_cons_iff, ← or_assoc]
      exact or_congr_left (by omega)

/-- Something fits into the longest free range exactly when it fits into some free range. -/
theorem le_largestFree_iff {needed : Nat} (positive : 0 < needed) :
    needed ≤ allocator.largestFree ↔ ∃ range ∈ allocator.free, needed ≤ range.length := by
  rw [largestFree, le_foldl_max]
  simp [Nat.not_le_of_lt positive]

/-- A size fits when its rounded length is a word and some free range is that long. -/
theorem fits_iff (power : IsWordPower allocator.alignment) (positive : 0 < size) :
    allocator.fits size = true ↔ size + (allocator.alignment - 1) < wordBound ∧
      ∃ range ∈ allocator.free, roundUp size allocator.alignment ≤ range.length := by
  have longer := le_roundUp power.pos size
  unfold fits
  split
  · next found =>
      obtain ⟨word, rfl⟩ := (reservedLength?_eq_some_iff power).mp found
      rw [decide_eq_true_iff, le_largestFree_iff (by omega)]
      simp [word]
  · next absent =>
      have overflow : ¬ size + (allocator.alignment - 1) < wordBound := fun word => by
        have := (reservedLength?_eq_some_iff power).mpr ⟨word, rfl⟩
        simp [absent] at this
      simp [overflow]

/-- All free ranges are inside of the arena. -/
theorem Tiled.free_inside (tiled : allocator.Tiled) :
    ∀ range ∈ allocator.free, range.stop ≤ allocator.capacity := by
  intro range member
  have nonempty := tiled.free_pos range member
  have last : range.Has (range.stop - 1) := by
    simp only [Region.Has, Region.stop]
    omega
  have within := ((tiled.covers _).mp ⟨range, member, last⟩).1
  omega

/-- No free range is longer than the arena. -/
theorem Tiled.largestFree_le (tiled : allocator.Tiled) :
    allocator.largestFree ≤ allocator.capacity := by
  by_contra longer
  obtain ⟨range, member, enough⟩ :=
    (le_largestFree_iff (Nat.zero_lt_of_lt (Nat.lt_of_not_le longer))).mp (Nat.le_refl _)
  have inside := tiled.free_inside range member
  unfold Region.stop at inside
  omega

/-- In an arena within machine words a size fits exactly if the longest free range has its rounded
length. -/
theorem Tiled.fits_iff_le (tiled : allocator.Tiled) (word : allocator.capacity < wordBound)
    (size : Nat) : allocator.fits size = true ↔
      roundUp size allocator.alignment ≤ allocator.largestFree := by
  unfold fits
  split
  · next needed found =>
      obtain ⟨-, rfl⟩ := (reservedLength?_eq_some_iff tiled.power).mp found
      exact decide_eq_true_iff
  · next absent =>
      refine iff_of_false Bool.false_ne_true fun short => ?_
      have long : wordBound ≤ size + (allocator.alignment - 1) := by
        by_contra word
        have found := (reservedLength?_eq_some_iff tiled.power).mpr ⟨Nat.lt_of_not_le word, rfl⟩
        cases absent.symm.trans found
      have rounded : wordBound ≤ roundUp size allocator.alignment := by
        obtain ⟨exponent, small, same⟩ := tiled.power
        have whole : wordBound = wordBound / 2 ^ exponent * 2 ^ exponent :=
          (Nat.div_mul_cancel (Nat.pow_dvd_pow 2 (Nat.le_of_lt small))).symm
        rw [same] at long ⊢
        rw [whole, roundUp]
        exact Nat.mul_le_mul_right _ (Nat.div_le_div_right long)
      have inside : allocator.largestFree ≤ allocator.capacity := tiled.largestFree_le
      omega

/-- **What fits can be reserved.** -/
theorem exists_allocate?_of_fits (power : IsWordPower allocator.alignment) (positive : 0 < size)
    (fits : allocator.fits size = true) :
    ∃ offset next, allocator.allocate? size = some (offset, next) := by
  obtain ⟨word, range, member, enough⟩ := (fits_iff power positive).mp fits
  obtain ⟨offset, rest, cut⟩ := exists_takeFirst member enough
  have length := (reservedLength?_eq_some_iff power).mpr ⟨word, rfl⟩
  exact ⟨offset, _, by rw [allocate?, length]; simp only [bind, Option.bind, cut]; rfl⟩

/-- What can be reserved was said to fit. -/
theorem fits_of_allocate? (power : IsWordPower allocator.alignment) (positive : 0 < size)
    (taken : allocator.allocate? size = some (offset, next)) : allocator.fits size = true := by
  obtain ⟨needed, length, rest⟩ := Option.bind_eq_some_iff.mp taken
  obtain ⟨⟨start, free⟩, cut, -⟩ := Option.bind_eq_some_iff.mp rest
  obtain ⟨word, rfl⟩ := (reservedLength?_eq_some_iff power).mp length
  obtain ⟨front, range, back, same, -, enough, -⟩ := eq_of_takeFirst cut
  exact (fits_iff power positive).mpr ⟨word, range, by simp [same], enough⟩

/-- The range that `joined` names is free once the reservation is given back. -/
theorem covers_of_joined {range : Region} {position : Nat}
    (here : (allocator.joined range).Has position) :
    range.Has position ∨ Covers allocator.free position := by
  have lower : ((allocator.free.find? fun other => other.stop = range.offset).map
      Region.offset).getD range.offset ≤ position := here.1
  have upper : position < ((allocator.free.find? fun other => other.offset = range.stop).map
      Region.stop).getD range.stop := by
    have := here.2
    simp only [joined, Region.stop] at *
    omega
  by_cases early : position < range.offset
  · cases before : allocator.free.find? fun other => other.stop = range.offset with
    | none =>
        rw [before, Option.map_none, Option.getD_none] at lower
        omega
    | some other =>
        rw [before, Option.map_some, Option.getD_some] at lower
        have touch : other.stop = range.offset := by simpa using List.find?_some before
        exact Or.inr ⟨other, List.mem_of_find?_eq_some before, lower, by omega⟩
  · by_cases late : range.stop ≤ position
    · cases after : allocator.free.find? fun other => other.offset = range.stop with
      | none =>
          rw [after, Option.map_none, Option.getD_none] at upper
          omega
      | some other =>
          rw [after, Option.map_some, Option.getD_some] at upper
          have touch : other.offset = range.stop := by simpa using List.find?_some after
          exact Or.inr ⟨other, List.mem_of_find?_eq_some after, by omega, upper⟩
    · exact Or.inl ⟨Nat.le_of_not_lt early, Nat.lt_of_not_le late⟩

/-- **What would fit after a release fits after the release.** -/
theorem Tiled.fits_of_fitsAfterRelease (tiled : allocator.Tiled) (positive : 0 < size)
    (fits : allocator.fitsAfterRelease size offset = true)
    (released : allocator.release? offset = some next) : next.fits size = true := by
  have longer := le_roundUp tiled.power.pos size
  have nextTiled := tiled.release released
  -- A stretch of free positions that is long enough lies in one free range of the next state.
  have found : ∀ start : Nat, size + (allocator.alignment - 1) < wordBound →
      (∀ position, start ≤ position → position < start + roundUp size allocator.alignment →
        Covers next.free position) → next.fits size = true := by
    intro start word free
    obtain ⟨range, member, lower, upper⟩ :=
      exists_range_of_covered nextTiled.separated (by omega) free
    obtain ⟨-, alignment⟩ := capacity_of_release? released
    refine (fits_iff nextTiled.power positive).mpr ⟨alignment ▸ word, range, member, ?_⟩
    rw [alignment]
    simp only [Region.stop] at upper
    omega
  obtain ⟨range, member, rfl, made⟩ := eq_of_release? released
  have freed : ∀ position, range.Has position ∨ Covers allocator.free position →
      Covers next.free position := fun position either => by
    rw [made]
    exact (covers_giveBack _ _ _).mpr either
  unfold fitsAfterRelease at fits
  split at fits
  · cases fits
  · next length =>
      obtain ⟨word, rfl⟩ := (reservedLength?_eq_some_iff tiled.power).mp length
      by_cases already : roundUp size allocator.alignment ≤ allocator.largestFree
      · obtain ⟨room, roomMember, enough⟩ := (le_largestFree_iff (by omega)).mp already
        refine found room.offset word fun position lower upper => ?_
        refine freed position (Or.inr ⟨room, roomMember, lower, ?_⟩)
        simp only [Region.stop]
        omega
      · rw [if_neg already] at fits
        split at fits
        · cases fits
        · next other reservation =>
            obtain rfl : other = range := by
              refine tiled.eq_of_offset (List.mem_of_find?_eq_some reservation) member ?_
              simpa using List.find?_some reservation
            have enough := of_decide_eq_true fits
            refine found (allocator.joined other).offset word fun position lower upper => ?_
            refine freed position (covers_of_joined ⟨lower, ?_⟩)
            simp only [Region.stop]
            omega

end Allocator

end LeaseCache
