import LeaseCache.Proofs.Arena.Tiling
import Mathlib.Data.List.Sort

/-!
# The gaps between reservations

A gap is a stretch of positions below the capacity that nothing occupies and
that cannot be made longer. Every vacant stretch lies in a gap
(`exists_isGap_of_vacant`), and gaps that meet are the same (`IsGap.eq_of_has`).

The free ranges of a tiling are exactly the gaps that its reservations leave
(`Tiled.mem_free_iff_isGap`). So what fits is decided by the reservations alone
(`Tiled.fits_iff_exists_isGap`), and the range that `joined` names is the gap
that a release makes, which shows that the test for room after a release misses
nothing (`Tiled.fitsAfterRelease_of_fits`). And allocators with the same reservations
are the same, in whatever order they were released (`Tiled.eq_of_perm`).
-/

set_option autoImplicit false

namespace LeaseCache

/-- A stretch below the capacity in which no position is taken, and which ends on both sides at a
taken position or at a bound. -/
structure IsGap (taken : Nat → Prop) (capacity : Nat) (gap : Region) : Prop where
  nonempty : 0 < gap.length
  inside : gap.stop ≤ capacity
  vacant : ∀ position, gap.Has position → ¬ taken position
  starts : gap.offset = 0 ∨ taken (gap.offset - 1)
  ends : gap.stop = capacity ∨ taken gap.stop

variable {taken other : Nat → Prop} {capacity start stop : Nat}

theorem IsGap.congr {gap : Region} (isGap : IsGap taken capacity gap)
    (same : ∀ position, taken position ↔ other position) : IsGap other capacity gap where
  nonempty := isGap.nonempty
  inside := isGap.inside
  vacant position here := (same position).not.mp (isGap.vacant position here)
  starts := isGap.starts.imp_right (same _).mp
  ends := isGap.ends.imp_right (same _).mp

theorem IsGap.has_offset {gap : Region} (isGap : IsGap taken capacity gap) :
    gap.Has gap.offset := by
  have := isGap.nonempty
  simp only [Region.Has, Region.stop]
  omega

/-! ## Every vacant stretch lies in a gap -/

/-- A vacant stretch can be made longer at its lower end until it meets a taken position. -/
theorem exists_lower_end (taken : Nat → Prop) (start : Nat) :
    ∃ lower ≤ start, (∀ position, lower ≤ position → position < start → ¬ taken position) ∧
      (lower = 0 ∨ taken (lower - 1)) := by
  induction start with
  | zero => exact ⟨0, Nat.le_refl _, by omega, Or.inl rfl⟩
  | succ start ih =>
      by_cases here : taken start
      · exact ⟨start + 1, Nat.le_refl _, by omega, Or.inr here⟩
      · obtain ⟨lower, below, vacant, bound⟩ := ih
        refine ⟨lower, Nat.le_succ_of_le below, fun position above before => ?_, bound⟩
        rcases Nat.lt_succ_iff_lt_or_eq.mp before with earlier | rfl
        · exact vacant position above earlier
        · exact here

/-- A vacant stretch can be made longer at its upper end until it meets a taken position or the
bound. -/
theorem exists_upper_end (taken : Nat → Prop) (within : stop ≤ capacity) :
    ∃ upper, stop ≤ upper ∧ upper ≤ capacity ∧
      (∀ position, stop ≤ position → position < upper → ¬ taken position) ∧
      (upper = capacity ∨ taken upper) := by
  obtain ⟨room, rfl⟩ := Nat.exists_eq_add_of_le within
  induction room generalizing stop with
  | zero => exact ⟨stop, Nat.le_refl _, Nat.le_refl _, by omega, Or.inl rfl⟩
  | succ room ih =>
      by_cases here : taken stop
      · exact ⟨stop, Nat.le_refl _, within, by omega, Or.inr here⟩
      · obtain ⟨upper, above, below, vacant, bound⟩ := ih (Nat.le_add_right (stop + 1) room)
        have shift : stop + 1 + room = stop + (room + 1) := by omega
        rw [shift] at below bound
        refine ⟨upper, Nat.le_of_succ_le above, below, fun position from_ before => ?_, bound⟩
        rcases Nat.eq_or_lt_of_le from_ with rfl | later
        · exact here
        · exact vacant position later before

/-- **Every vacant stretch lies in a gap.** -/
theorem exists_isGap_of_vacant (nonempty : start < stop) (within : stop ≤ capacity)
    (vacant : ∀ position, start ≤ position → position < stop → ¬ taken position) :
    ∃ gap, IsGap taken capacity gap ∧ gap.offset ≤ start ∧ stop ≤ gap.stop := by
  obtain ⟨lower, below, before, lowerEnd⟩ := exists_lower_end taken start
  obtain ⟨upper, above, inside, behind, upperEnd⟩ := exists_upper_end taken within
  have width : lower + (upper - lower) = upper := by omega
  refine ⟨⟨lower, upper - lower⟩, ⟨by dsimp only; omega, ?_, ?_, lowerEnd, ?_⟩, below, ?_⟩
  · exact (Nat.le_of_eq width).trans inside
  · rintro position ⟨from_, until_⟩
    rw [Region.stop, width] at until_
    by_cases early : position < start
    · exact before position from_ early
    · by_cases late : stop ≤ position
      · exact behind position late until_
      · exact vacant position (Nat.le_of_not_lt early) (Nat.lt_of_not_le late)
  · rwa [Region.stop, width]
  · rwa [Region.stop, width]

/-- Gaps that share a position are the same. -/
theorem IsGap.eq_of_has {first second : Region} (isGap : IsGap taken capacity first)
    (also : IsGap taken capacity second) {position : Nat} (here : first.Has position)
    (there : second.Has position) : first = second := by
  -- A gap that reached beyond the other would contain the taken position at the other's end.
  have lower : ∀ {one two : Region}, IsGap taken capacity one → IsGap taken capacity two →
      one.Has position → two.Has position → two.offset ≤ one.offset := by
    intro one two oneGap twoGap inOne inTwo
    by_contra beyond
    rcases twoGap.starts with zero | before
    · omega
    · refine oneGap.vacant (two.offset - 1) ?_ before
      simp only [Region.Has, Region.stop] at *
      omega
  have upper : ∀ {one two : Region}, IsGap taken capacity one → IsGap taken capacity two →
      one.Has position → two.Has position → one.stop ≤ two.stop := by
    intro one two oneGap twoGap inOne inTwo
    by_contra beyond
    rcases twoGap.ends with whole | behind
    · exact beyond (whole ▸ oneGap.inside)
    · refine oneGap.vacant two.stop ?_ behind
      simp only [Region.Has, Region.stop] at *
      omega
  have offsets := Nat.le_antisymm (lower also isGap there here) (lower isGap also here there)
  have stops := Nat.le_antisymm (upper isGap also here there) (upper also isGap there here)
  obtain ⟨offset, length⟩ := first
  obtain ⟨otherOffset, otherLength⟩ := second
  simp only [Region.stop] at offsets stops
  rw [Region.mk.injEq]
  omega

/-! ## Ranges in order -/

/-- Ranges that are not empty and of which each ends before the next begins stand in one order
only. -/
theorem Ordered.eq_of_mem_iff {ranges others : List Region} (ordered : Ordered ranges)
    (also : Ordered others) (nonempty : ∀ range ∈ ranges, 0 < range.length)
    (same : ∀ range, range ∈ ranges ↔ range ∈ others) : ranges = others := by
  have rising : ∀ {list : List Region}, Ordered list → (∀ range ∈ list, 0 < range.length) →
      list.Pairwise fun first second => first.offset < second.offset := by
    intro list apart positive
    refine apart.imp_of_mem fun {first second} member _ before => ?_
    have := positive first member
    simp only [Region.stop] at before
    omega
  have : Std.Antisymm fun first second : Region => first.offset < second.offset :=
    ⟨fun _ _ before after => absurd after (Nat.lt_asymm before)⟩
  have : Std.Irrefl fun first second : Region => first.offset < second.offset :=
    ⟨fun _ => Nat.lt_irrefl _⟩
  exact (rising ordered nonempty).eq_of_mem_iff
    (rising also fun range member => nonempty range ((same range).mpr member)) same

/-! ## The free ranges of a tiling -/

namespace Allocator

variable {allocator next : Allocator} {size offset : Nat} {range : Region}

theorem Tiled.isGap_of_mem_free (tiled : allocator.Tiled) (member : range ∈ allocator.free) :
    IsGap (Covers allocator.reserved) allocator.capacity range := by
  have nonempty := tiled.free_pos range member
  have free : ∀ position, range.Has position →
      position < allocator.capacity ∧ ¬ Covers allocator.reserved position := fun position here =>
    (tiled.covers position).mp ⟨range, member, here⟩
  have last : range.stop ≤ allocator.capacity := by
    have := (free (range.stop - 1) (by simp only [Region.Has, Region.stop]; omega)).1
    omega
  -- A free position right beside the range would lie in another free range that meets it.
  have alone : ∀ position, Covers allocator.free position →
      range.Has position ∨ position + 1 < range.offset ∨ range.stop < position := by
    rintro position ⟨other, otherMember, here⟩
    by_cases same : range = other
    · exact Or.inl (same ▸ here)
    · have apart := tiled.separated.lt_or_lt member otherMember same
      simp only [Region.Has, Region.stop] at *
      omega
  refine ⟨nonempty, last, fun position here => (free position here).2, ?_, ?_⟩
  · by_contra! inner
    have covered := (tiled.covers (range.offset - 1)).mpr
      ⟨by simp only [Region.stop] at last; omega, inner.2⟩
    have := alone _ covered
    simp only [Region.Has, Region.stop] at *
    omega
  · by_contra! inner
    have covered := (tiled.covers range.stop).mpr ⟨by omega, inner.2⟩
    have := alone _ covered
    simp only [Region.Has, Region.stop] at *
    omega

/-- **The free ranges are the gaps between the reservations.** -/
theorem Tiled.mem_free_iff_isGap (tiled : allocator.Tiled) :
    range ∈ allocator.free ↔ IsGap (Covers allocator.reserved) allocator.capacity range := by
  refine ⟨tiled.isGap_of_mem_free, fun isGap => ?_⟩
  have below := Nat.lt_of_lt_of_le isGap.has_offset.2 isGap.inside
  obtain ⟨free, member, here⟩ :=
    (tiled.covers range.offset).mpr ⟨below, isGap.vacant _ isGap.has_offset⟩
  rwa [isGap.eq_of_has (tiled.isGap_of_mem_free member) isGap.has_offset here]

/-- What fits is decided by the gaps between the reservations. -/
theorem Tiled.fits_iff_exists_isGap (tiled : allocator.Tiled) (positive : 0 < size)
    (word : size + (allocator.alignment - 1) < wordBound) :
    allocator.fits size = true ↔
      ∃ gap, IsGap (Covers allocator.reserved) allocator.capacity gap ∧
        roundUp size allocator.alignment ≤ gap.length := by
  simp only [fits_iff tiled.power positive, word, true_and, tiled.mem_free_iff_isGap]

/-! ## The gap that a release makes -/

/-- The reservations after a release cover what the others covered. -/
theorem Tiled.covers_of_release? (tiled : allocator.Tiled) (member : range ∈ allocator.reserved)
    (released : allocator.release? range.offset = some next) (position : Nat) :
    Covers allocator.reserved position ↔ range.Has position ∨ Covers next.reserved position := by
  obtain ⟨same, offset, split⟩ := tiled.reserved_of_release? released
  have : same = range :=
    tiled.eq_of_offset (split.mem_iff.mpr List.mem_cons_self) member offset
  subst this
  rw [covers_perm split, covers_cons]

/-- A free position next to a reservation lies in the free range that `joined` looks for. -/
theorem Tiled.free_beside (tiled : allocator.Tiled) (member : range ∈ allocator.reserved)
    {free : Region} (freeMember : free ∈ allocator.free) {position : Nat}
    (here : free.Has position) :
    (position + 1 = range.offset → free.stop = range.offset) ∧
      (position = range.stop → free.offset = range.stop) := by
  have nonempty := tiled.reserved_pos range member
  have apart : ∀ inner, range.Has inner → ¬ free.Has inner := fun inner inRange inFree =>
    ((tiled.covers inner).mp ⟨free, freeMember, inFree⟩).2 ⟨range, member, inRange⟩
  have first := apart range.offset
  have last := apart (range.stop - 1)
  simp only [Region.Has, Region.stop] at *
  omega

/-- The lower end of `joined`: the reservation, unless a free range ends there. -/
theorem Tiled.joined_lower (tiled : allocator.Tiled) (member : range ∈ allocator.reserved)
    (released : allocator.release? range.offset = some next) :
    (allocator.joined range).offset ≤ range.offset ∧
      ((allocator.joined range).offset = 0 ∨
        Covers next.reserved ((allocator.joined range).offset - 1)) := by
  have split := tiled.covers_of_release? member released
  cases before : allocator.free.find? fun other => other.stop = range.offset with
  | none =>
      have start : (allocator.joined range).offset = range.offset := by
        simp only [joined, before, Option.map_none, Option.getD_none]
      rw [start]
      refine ⟨Nat.le_refl _, ?_⟩
      by_contra! inner
      have outside : ¬ Covers allocator.reserved (range.offset - 1) := by
        rw [split]
        refine not_or.mpr ⟨fun here => ?_, inner.2⟩
        have := here.1
        omega
      have within := tiled.inside range member
      obtain ⟨free, freeMember, here⟩ := (tiled.covers (range.offset - 1)).mpr
        ⟨by simp only [Region.stop] at within; omega, outside⟩
      have touch := (tiled.free_beside member freeMember here).1 (by omega)
      exact absurd (decide_eq_true touch) (List.find?_eq_none.mp before free freeMember)
  | some other =>
      have touch : other.stop = range.offset := by simpa using List.find?_some before
      have freeMember := List.mem_of_find?_eq_some before
      have start : (allocator.joined range).offset = other.offset := by
        simp only [joined, before, Option.map_some, Option.getD_some]
      rw [start]
      refine ⟨touch ▸ Nat.le_add_right _ _, ?_⟩
      refine (tiled.isGap_of_mem_free freeMember).starts.imp_right fun taken => ?_
      refine ((split _).mp taken).resolve_left fun here => ?_
      have nonempty := tiled.free_pos other freeMember
      simp only [Region.Has, Region.stop] at *
      omega

/-- The upper end of `joined`: the reservation, unless a free range begins there. -/
theorem Tiled.joined_upper (tiled : allocator.Tiled) (member : range ∈ allocator.reserved)
    (released : allocator.release? range.offset = some next) :
    range.stop ≤ (allocator.joined range).stop ∧
      (allocator.joined range).stop ≤ allocator.capacity ∧
      ((allocator.joined range).stop = allocator.capacity ∨
        Covers next.reserved (allocator.joined range).stop) := by
  have split := tiled.covers_of_release? member released
  have within := tiled.inside range member
  have lower := (tiled.joined_lower member released).1
  have width : (allocator.joined range).stop =
      max (allocator.joined range).offset (((allocator.free.find? fun other =>
        other.offset = range.stop).map Region.stop).getD range.stop) := by
    simp only [joined, Region.stop]
    omega
  have nonempty := tiled.reserved_pos range member
  cases after : allocator.free.find? fun other => other.offset = range.stop with
  | none =>
      have stop : (allocator.joined range).stop = range.stop := by
        rw [width, after, Option.map_none, Option.getD_none]
        simp only [Region.stop] at *
        omega
      rw [stop]
      refine ⟨Nat.le_refl _, within, ?_⟩
      by_contra! inner
      have outside : ¬ Covers allocator.reserved range.stop := by
        rw [split]
        exact not_or.mpr ⟨fun here => Nat.lt_irrefl _ here.2, inner.2⟩
      obtain ⟨free, freeMember, here⟩ := (tiled.covers range.stop).mpr ⟨by omega, outside⟩
      have touch := (tiled.free_beside member freeMember here).2 rfl
      exact absurd (decide_eq_true touch) (List.find?_eq_none.mp after free freeMember)
  | some other =>
      have touch : other.offset = range.stop := by simpa using List.find?_some after
      have freeMember := List.mem_of_find?_eq_some after
      have isGap := tiled.isGap_of_mem_free freeMember
      have stop : (allocator.joined range).stop = other.stop := by
        rw [width, after, Option.map_some, Option.getD_some]
        simp only [Region.stop] at *
        omega
      rw [stop]
      refine ⟨by simp only [Region.stop] at *; omega, isGap.inside, ?_⟩
      refine isGap.ends.imp_right fun taken => ((split _).mp taken).resolve_left fun here => ?_
      simp only [Region.Has, Region.stop] at *
      omega

/-- **The range that `joined` names is the gap that the release makes.** -/
theorem Tiled.isGap_joined (tiled : allocator.Tiled) (member : range ∈ allocator.reserved)
    (released : allocator.release? range.offset = some next) :
    IsGap (Covers next.reserved) allocator.capacity (allocator.joined range) ∧
      ∀ position, range.Has position → (allocator.joined range).Has position := by
  obtain ⟨lower, starts⟩ := tiled.joined_lower member released
  obtain ⟨upper, inside, ends⟩ := tiled.joined_upper member released
  have nonempty := tiled.reserved_pos range member
  refine ⟨⟨?_, inside, fun position within => ?_, starts, ends⟩, fun position here =>
    ⟨lower.trans here.1, Nat.lt_of_lt_of_le here.2 upper⟩⟩
  · simp only [Region.stop] at upper
    omega
  · have nextTiled := tiled.release released
    obtain ⟨same, sameMember, offset, made⟩ := eq_of_release? released
    obtain rfl := tiled.eq_of_offset sameMember member offset
    refine ((nextTiled.covers position).mp ?_).2
    rw [made]
    exact (covers_giveBack _ _ _).mpr (covers_of_joined within)

/-- **What fits after a release was said to fit after it.** -/
theorem Tiled.fitsAfterRelease_of_fits (tiled : allocator.Tiled) (positive : 0 < size)
    (released : allocator.release? offset = some next) (fits : next.fits size = true) :
    allocator.fitsAfterRelease size offset = true := by
  obtain ⟨range, member, rfl, -⟩ := eq_of_release? released
  obtain ⟨capacity, alignment⟩ := capacity_of_release? released
  have nextTiled := tiled.release released
  obtain ⟨word, free, freeMember, enough⟩ := (fits_iff nextTiled.power positive).mp fits
  rw [alignment] at word enough
  have longer := le_roundUp tiled.power.pos size
  have length := (reservedLength?_eq_some_iff tiled.power).mpr ⟨word, rfl⟩
  have gap := nextTiled.isGap_of_mem_free freeMember
  rw [capacity] at gap
  obtain ⟨joins, meets⟩ := tiled.isGap_joined member released
  unfold fitsAfterRelease
  rw [length]
  dsimp only
  split
  · rfl
  · next short =>
      obtain ⟨found, reservation⟩ : ∃ found, allocator.reservation? range.offset = some found := by
        rw [← Option.isSome_iff_exists, reservation?, List.find?_isSome]
        exact ⟨range, member, by simp⟩
      obtain rfl : found = range := by
        refine tiled.eq_of_offset (List.mem_of_find?_eq_some reservation) member ?_
        simpa using List.find?_some reservation
      rw [reservation]
      refine decide_eq_true ?_
      -- A gap apart from the released range was a free range before, but none was long enough.
      by_cases same : ∃ position, free.Has position ∧ found.Has position
      · obtain ⟨position, inFree, inRange⟩ := same
        rwa [← gap.eq_of_has joins inFree (meets position inRange)]
      · refine absurd ((le_largestFree_iff (by omega)).mpr ⟨free, ?_, enough⟩) short
        have split := tiled.covers_of_release? member released
        refine tiled.mem_free_iff_isGap.mpr ⟨gap.nonempty, gap.inside, ?_, ?_, ?_⟩
        · intro position here taken
          rcases (split position).mp taken with inRange | other
          · exact same ⟨position, here, inRange⟩
          · exact gap.vacant position here other
        · exact gap.starts.imp_right fun taken => (split _).mpr (Or.inr taken)
        · exact gap.ends.imp_right fun taken => (split _).mpr (Or.inr taken)

/-! ## Tilings with the same reservations -/

/-- **An allocator is decided by its reservations.** -/
theorem Tiled.eq_of_perm (tiled : allocator.Tiled) (also : next.Tiled)
    (capacity : next.capacity = allocator.capacity)
    (alignment : next.alignment = allocator.alignment)
    (same : allocator.reserved.Perm next.reserved) : next = allocator := by
  have reserved : next.reserved = allocator.reserved :=
    also.ordered.eq_of_mem_iff tiled.ordered also.reserved_pos fun _ => same.symm.mem_iff
  have free : next.free = allocator.free := by
    refine Ordered.eq_of_mem_iff (also.separated.imp Nat.le_of_lt)
      (tiled.separated.imp Nat.le_of_lt) also.free_pos fun range => ?_
    rw [also.mem_free_iff_isGap, tiled.mem_free_iff_isGap, reserved, capacity]
  have used : next.used = allocator.used := by
    rw [also.used_eq, tiled.used_eq, reserved]
  obtain ⟨_, _, _, _, _⟩ := next
  obtain ⟨_, _, _, _, _⟩ := allocator
  simp only [mk.injEq]
  exact ⟨capacity, alignment, free, reserved, used⟩

end Allocator

end LeaseCache
