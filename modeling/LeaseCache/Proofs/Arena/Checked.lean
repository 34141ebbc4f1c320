import LeaseCache.Proofs.Arena.Gaps

/-!
# Allocation with machine words

The allocator computes with natural numbers, and a machine computes with words.
Here its operations are written with checked arithmetic: every sum and every
difference is a step of its own, and the step has no value if its result is not
a word (`Checked`). The lists of ranges are used as maps from offsets, so the
neighbours of a reservation are looked up and not met on the way, as `giveBack`
meets them.

In a tiling of a capacity that is a word every step has a value, and the outcome
is the exact one (`Tiled.checkedAllocate_eq`, `Tiled.checkedRelease_eq`,
`Tiled.checkedFits_eq`).
-/

set_option autoImplicit false

namespace LeaseCache

/-! ## Words -/

namespace Checked

/-- The sum of two words, if it is a word. -/
def add (first second : Nat) : Option Nat :=
  if first + second < wordBound then some (first + second) else none

/-- The difference of two words, if it is not negative. -/
def sub (first second : Nat) : Option Nat :=
  if second ≤ first then some (first - second) else none

theorem add_eq {first second : Nat} (word : first + second < wordBound) :
    add first second = some (first + second) := if_pos word

theorem sub_eq {first second : Nat} (less : second ≤ first) :
    sub first second = some (first - second) := if_pos less

end Checked

/-! ## Free ranges as a map from offsets -/

variable {range : Region} {ranges : List Region} {needed : Nat}

/-- In a list with gaps no two ranges begin or end at one position. -/
theorem Separated.eq_of_end (separated : Separated ranges)
    (positive : ∀ other ∈ ranges, 0 < other.length) {other : Region} (member : range ∈ ranges)
    (otherMember : other ∈ ranges) (same : range.offset = other.offset ∨ range.stop = other.stop) :
    range = other := by
  by_contra different
  have := separated.lt_or_lt member otherMember different
  have := positive range member
  have := positive other otherMember
  simp only [Region.stop] at *
  omega

/-- A range is the one found by a property if it is the only one that has the property. -/
theorem find?_eq_some_iff_of_only (property : Region → Bool) (member : range ∈ ranges)
    (only : ∀ other ∈ ranges, property range → property other → range = other) :
    ranges.find? property = some range ↔ property range = true := by
  refine ⟨List.find?_some, fun has => ?_⟩
  obtain ⟨other, found⟩ := Option.isSome_iff_exists.mp (List.find?_isSome.mpr ⟨range, member, has⟩)
  rw [found, only other (List.mem_of_find?_eq_some found) has (List.find?_some found)]

namespace Allocator

/-- A range that begins before all others comes first. -/
theorem insertOrdered_of_lt (before : ∀ other ∈ ranges, range.offset < other.offset) :
    insertOrdered range ranges = range :: ranges := by
  cases ranges with
  | nil => rfl
  | cons first rest => rw [insertOrdered, if_pos (before first List.mem_cons_self)]

/-- Filtering out what is not there changes nothing. -/
theorem filter_offset_ne (other : ∀ inside ∈ ranges, inside.offset ≠ range.offset) :
    (ranges.filter fun inside => inside.offset ≠ range.offset) = ranges :=
  List.filter_eq_self.mpr fun inside member => decide_eq_true (other inside member)

/-- A cut takes the first range that is long enough out of the map and puts its rest back. -/
theorem takeFirst_eq (separated : Separated ranges) :
    takeFirst needed ranges = (ranges.find? fun range => needed ≤ range.length).map fun range =>
      (range.offset,
        if needed < range.length then
          insertOrdered ⟨range.offset + needed, range.length - needed⟩
            (ranges.filter fun other => other.offset ≠ range.offset)
        else ranges.filter fun other => other.offset ≠ range.offset) := by
  induction ranges with
  | nil => rfl
  | cons first rest ih =>
      obtain ⟨least, later⟩ := List.pairwise_cons.mp separated
      by_cases fits : needed ≤ first.length
      · have others : ∀ other ∈ rest, other.offset ≠ first.offset := by
          intro other member
          have := least other member
          simp only [Region.stop] at this
          omega
        rw [takeFirst, if_pos fits, List.find?_cons_of_pos (by simpa using fits), Option.map_some,
          List.filter_cons_of_neg (by simp), filter_offset_ne others]
        split
        · next short =>
            rw [insertOrdered_of_lt]
            intro other member
            have := least other member
            simp only [Region.stop] at *
            omega
        · rfl
      · rw [takeFirst, if_neg fits, List.find?_cons_of_neg (by simpa using fits), ih later,
          Option.map_map]
        refine Option.map_congr fun found inside => ?_
        have member := List.mem_of_find?_eq_some inside
        have after := least found member
        have different : first.offset ≠ found.offset := by
          simp only [Region.stop] at after
          omega
        have kept : ((first :: rest).filter fun other => other.offset ≠ found.offset) =
            first :: rest.filter fun other => other.offset ≠ found.offset :=
          List.filter_cons_of_pos (by simpa using different)
        have behind : ¬ found.offset + needed < first.offset := by
          simp only [Region.stop] at after
          omega
        rw [kept, Function.comp_apply, insertOrdered, if_neg behind]
        by_cases short : needed < found.length
        · rw [if_pos short, if_pos short]
        · rw [if_neg short, if_neg short]

/-- The free range that ends where a reservation starts is the last one before it, or none is. -/
theorem getLast?_before (separated : Separated ranges) (positive : ∀ other ∈ ranges, 0 < other.length)
    (start : Nat) :
    (ranges.find? fun other => other.stop = start) =
      ((ranges.filter fun other => other.offset < start).getLast?).filter fun before =>
        before.stop = start := by
  induction ranges with
  | nil => rfl
  | cons first rest ih =>
      obtain ⟨least, later⟩ := List.pairwise_cons.mp separated
      have nonempty := positive first List.mem_cons_self
      have tail := ih later fun other member => positive other (List.mem_cons_of_mem _ member)
      by_cases before : first.offset < start
      · have kept : ((first :: rest).filter fun other => other.offset < start) =
            first :: rest.filter fun other => other.offset < start :=
          List.filter_cons_of_pos (by simpa using before)
        rw [kept, List.getLast?_cons]
        by_cases touch : first.stop = start
        · -- Whatever follows begins behind the end of the first range.
          have last : (rest.filter fun other => other.offset < start) = [] := by
            refine List.filter_eq_nil_iff.mpr fun other member early => ?_
            have := least other member
            have := of_decide_eq_true early
            omega
          rw [List.find?_cons_of_pos (by simpa using touch), last]
          simp [Option.filter, touch]
        · rw [List.find?_cons_of_neg (by simpa using touch), tail]
          cases last : (rest.filter fun other => other.offset < start).getLast? with
          | none => simp [Option.filter, touch]
          | some other => rfl
      · have beyond : first.stop ≠ start := by
          simp only [Region.stop]
          omega
        have dropped : ((first :: rest).filter fun other => other.offset < start) =
            rest.filter fun other => other.offset < start :=
          List.filter_cons_of_neg (by simpa using before)
        rw [dropped, List.find?_cons_of_neg (by simpa using beyond), tail]

/-- The lower end of the free range that ends at a position, or else the position. -/
def lowerEnd (ranges : List Region) (start : Nat) : Nat :=
  ((ranges.find? fun other => other.stop = start).map Region.offset).getD start

/-- The upper end of the free range that begins at a position, or else the position. -/
def upperEnd (ranges : List Region) (stop : Nat) : Nat :=
  ((ranges.find? fun other => other.offset = stop).map Region.stop).getD stop

theorem lowerEnd_le (ranges : List Region) (start : Nat) : lowerEnd ranges start ≤ start := by
  rw [lowerEnd]
  cases found : ranges.find? fun other => other.stop = start with
  | none => exact Nat.le_refl _
  | some other =>
      have touch : other.stop = start := by simpa using List.find?_some found
      exact touch ▸ Nat.le_add_right other.offset other.length

theorem le_upperEnd (ranges : List Region) (stop : Nat) : stop ≤ upperEnd ranges stop := by
  rw [upperEnd]
  cases found : ranges.find? fun other => other.offset = stop with
  | none => exact Nat.le_refl _
  | some other =>
      have touch : other.offset = stop := by simpa using List.find?_some found
      exact touch ▸ Nat.le_add_right other.offset other.length

/-- Joining takes the next range out of the map if it begins where the joined one ends. -/
theorem joinNext_eq (separated : Separated ranges)
    (ahead : ∀ other ∈ ranges, range.stop ≤ other.offset) :
    joinNext range ranges =
      ⟨range.offset, upperEnd ranges range.stop - range.offset⟩ ::
        ranges.filter fun other => other.offset ≠ range.stop := by
  have whole : range.stop - range.offset = range.length := Nat.add_sub_cancel_left _ _
  cases ranges with
  | nil => simp [joinNext, upperEnd, whole]
  | cons next rest =>
      obtain ⟨least, -⟩ := List.pairwise_cons.mp separated
      have others : ∀ other ∈ rest, other.offset ≠ range.stop := by
        intro other member
        have := least other member
        have := ahead next List.mem_cons_self
        simp only [Region.stop] at *
        omega
      have kept : (rest.filter fun other => other.offset ≠ range.stop) = rest :=
        List.filter_eq_self.mpr fun other member => decide_eq_true (others other member)
      by_cases touch : range.stop = next.offset
      · have dropped : ((next :: rest).filter fun other => other.offset ≠ range.stop) = rest := by
          rw [List.filter_cons_of_neg (by simp [touch]), kept]
        have upper : upperEnd (next :: rest) range.stop = next.stop := by
          rw [upperEnd, List.find?_cons_of_pos (by simp [touch])]
          rfl
        rw [joinNext, if_pos touch, dropped, upper]
        congr 2
        simp only [Region.stop] at *
        omega
      · have all : ((next :: rest).filter fun other => other.offset ≠ range.stop) = next :: rest := by
          rw [List.filter_cons_of_pos (by simpa using Ne.symm touch), kept]
        have upper : upperEnd (next :: rest) range.stop = range.stop := by
          have absent : ((next :: rest).find? fun other => other.offset = range.stop) = none := by
            rw [List.find?_cons_of_neg (by simpa using Ne.symm touch), List.find?_eq_none]
            simpa using others
          rw [upperEnd, absent]
          rfl
        rw [joinNext, if_neg touch, all, upper, whole]

/-- The free ranges without those that touch a range. -/
def apartFrom (range : Region) (ranges : List Region) : List Region :=
  ranges.filter fun other => other.stop ≠ range.offset ∧ other.offset ≠ range.stop

/-- The range that a range makes with the free ranges that touch it. -/
def joinedWith (range : Region) (ranges : List Region) : Region :=
  ⟨lowerEnd ranges range.offset, upperEnd ranges range.stop - lowerEnd ranges range.offset⟩

/-- If no free range ends where a range starts, it is enough to look behind the range. -/
theorem joinNext_eq_of_ahead (separated : Separated ranges) (nonempty : 0 < range.length)
    (ahead : ∀ other ∈ ranges, range.stop ≤ other.offset) :
    joinNext range ranges = insertOrdered (joinedWith range ranges) (apartFrom range ranges) := by
  have alone : ∀ other ∈ ranges, other.stop ≠ range.offset := by
    intro other member
    have := ahead other member
    simp only [Region.stop] at *
    omega
  have lower : lowerEnd ranges range.offset = range.offset := by
    rw [lowerEnd, List.find?_eq_none.mpr (by simpa using alone)]
    rfl
  have others : apartFrom range ranges = ranges.filter fun other => other.offset ≠ range.stop :=
    List.filter_congr fun other member => by simp [alone other member]
  rw [joinNext_eq separated ahead, others, joinedWith, lower, insertOrdered_of_lt]
  intro other member
  have := ahead other (List.mem_of_mem_filter member)
  simp only [Region.stop] at *
  omega

variable {first : Region} {rest : List Region}

/-- A range before the given one is no neighbour behind it. -/
theorem upperEnd_cons (early : first.offset < range.stop) :
    upperEnd (first :: rest) range.stop = upperEnd rest range.stop := by
  have aside : first.offset ≠ range.stop := Nat.ne_of_lt early
  rw [upperEnd, upperEnd, List.find?_cons_of_neg (by simpa using aside)]

/-- If the first free range ends where a range starts, the two are one range for what follows. -/
theorem joinNext_eq_of_touch (separated : Separated (first :: rest)) (nonempty : 0 < range.length)
    (touch : first.stop = range.offset) (disjoint : ∀ other ∈ rest, range.Disjoint other) :
    joinNext ⟨first.offset, first.length + range.length⟩ rest =
      insertOrdered (joinedWith range (first :: rest)) (apartFrom range (first :: rest)) := by
  obtain ⟨least, later⟩ := List.pairwise_cons.mp separated
  have alone : ∀ other ∈ rest, other.stop ≠ range.offset := by
    intro other member
    have := least other member
    simp only [Region.stop] at *
    omega
  have stop : (⟨first.offset, first.length + range.length⟩ : Region).stop = range.stop := by
    simp only [Region.stop] at *
    omega
  have ahead : ∀ other ∈ rest, range.stop ≤ other.offset := by
    intro other member
    have := least other member
    have := disjoint other member
    simp only [Region.Disjoint, Region.stop] at *
    omega
  have lower : lowerEnd (first :: rest) range.offset = first.offset := by
    rw [lowerEnd, List.find?_cons_of_pos (by simpa using touch)]
    rfl
  have upper : upperEnd (first :: rest) range.stop = upperEnd rest range.stop :=
    upperEnd_cons (by simp only [Region.stop] at *; omega)
  have others : apartFrom range (first :: rest) =
      rest.filter fun other => other.offset ≠ range.stop := by
    rw [apartFrom, List.filter_cons_of_neg (by simp [touch])]
    exact List.filter_congr fun other member => by simp [alone other member]
  rw [joinNext_eq later (by rwa [stop]), stop, others, joinedWith, lower, upper,
    insertOrdered_of_lt]
  intro other member
  have := least other (List.mem_of_mem_filter member)
  simp only [Region.stop] at *
  omega

/-- A free range that ends before a range starts stays in front. -/
theorem cons_insertOrdered_joined (separated : Separated (first :: rest))
    (gap : first.stop < range.offset) :
    first :: insertOrdered (joinedWith range rest) (apartFrom range rest) =
      insertOrdered (joinedWith range (first :: rest)) (apartFrom range (first :: rest)) := by
  obtain ⟨least, -⟩ := List.pairwise_cons.mp separated
  have lower : lowerEnd (first :: rest) range.offset = lowerEnd rest range.offset := by
    rw [lowerEnd, lowerEnd, List.find?_cons_of_neg (by simpa using Nat.ne_of_lt gap)]
  have upper : upperEnd (first :: rest) range.stop = upperEnd rest range.stop :=
    upperEnd_cons (by simp only [Region.stop] at *; omega)
  have kept : apartFrom range (first :: rest) = first :: apartFrom range rest := by
    refine List.filter_cons_of_pos (decide_eq_true ⟨Nat.ne_of_lt gap, ?_⟩)
    simp only [Region.stop] at *
    omega
  have above : ¬ lowerEnd rest range.offset < first.offset := by
    rw [lowerEnd]
    cases found : rest.find? fun other => other.stop = range.offset with
    | none =>
        rw [Option.map_none, Option.getD_none]
        simp only [Region.stop] at *
        omega
    | some other =>
        have := least other (List.mem_of_find?_eq_some found)
        rw [Option.map_some, Option.getD_some]
        simp only [Region.stop] at *
        omega
  rw [kept, joinedWith, joinedWith, lower, upper, insertOrdered, if_neg above]

/-- **Giving a range back takes the free ranges that touch it out of the map and puts the union
in.** -/
theorem giveBack_eq (separated : Separated ranges) (positive : ∀ other ∈ ranges, 0 < other.length)
    (nonempty : 0 < range.length) (disjoint : ∀ other ∈ ranges, range.Disjoint other) :
    giveBack range ranges = insertOrdered (joinedWith range ranges) (apartFrom range ranges) := by
  induction ranges with
  | nil => simp [giveBack, joinedWith, apartFrom, lowerEnd, upperEnd, insertOrdered, Region.stop]
  | cons first rest ih =>
      obtain ⟨least, later⟩ := List.pairwise_cons.mp separated
      have firstPositive := positive first List.mem_cons_self
      have apart := disjoint first List.mem_cons_self
      have restDisjoint : ∀ other ∈ rest, range.Disjoint other := fun other member =>
        disjoint other (List.mem_cons_of_mem _ member)
      rw [giveBack]
      split
      · next before =>
          refine joinNext_eq_of_ahead separated nonempty fun other member => ?_
          rcases List.mem_cons.mp member with rfl | behind
          · simp only [Region.Disjoint, Region.stop] at *
            omega
          · have := least other behind
            simp only [Region.Disjoint, Region.stop] at *
            omega
      · next behind =>
          have early : first.stop ≤ range.offset := by
            simp only [Region.Disjoint, Region.stop] at *
            omega
          split
          · next touch => exact joinNext_eq_of_touch separated nonempty touch restDisjoint
          · next gap =>
              rw [← cons_insertOrdered_joined separated (Nat.lt_of_le_of_ne early gap)]
              refine congrArg (first :: ·) (ih later (fun other member => ?_) restDisjoint)
              exact positive other (List.mem_cons_of_mem _ member)

/-! ## Operations with checked arithmetic -/

/-- The reserved length of a size. The sum with the alignment may exceed a word, and then there is
none; that is no failure. -/
def checkedLength (allocator : Allocator) (size : Nat) : Option (Option Nat) := do
  let low ← Checked.sub allocator.alignment 1
  return (Checked.add size low).map fun sum => sum &&& (wordBound - 1 - low)

/-- Reserves room for `size` bytes. -/
def checkedAllocate (allocator : Allocator) (size : Nat) : Option (Option (Nat × Allocator)) := do
  match ← allocator.checkedLength size with
  | none => return none
  | some needed =>
      match allocator.free.find? fun range => needed ≤ range.length with
      | none => return none
      | some range =>
          let others := allocator.free.filter fun other => other.offset ≠ range.offset
          let free ←
            if needed < range.length then do
              let start ← Checked.add range.offset needed
              let length ← Checked.sub range.length needed
              pure (insertOrdered ⟨start, length⟩ others)
            else pure others
          let used ← Checked.add allocator.used needed
          return some (range.offset, { allocator with
            free := free
            reserved := insertOrdered ⟨range.offset, needed⟩ allocator.reserved
            used := used })

/-- The last free range before a position, if it ends there. -/
def checkedBefore (allocator : Allocator) (start : Nat) : Option (Option Region) :=
  match (allocator.free.filter fun other => other.offset < start).getLast? with
  | none => some none
  | some last => do
      let stop ← Checked.add last.offset last.length
      return if stop = start then some last else none

/-- The end of a stretch that may be followed by a range. -/
def checkedEnd (stop : Nat) : Option Region → Option Nat
  | none => some stop
  | some next => Checked.add stop next.length

/-- The free neighbours of a reservation and the range that it makes with them. -/
def checkedJoin (allocator : Allocator) (range : Region) :
    Option (Option Region × Option Region × Region) := do
  let stop ← Checked.add range.offset range.length
  let before ← allocator.checkedBefore range.offset
  let after := allocator.free.find? fun other => other.offset = stop
  let start := (before.map Region.offset).getD range.offset
  let last ← checkedEnd stop after
  let length ← Checked.sub last start
  return (before, after, ⟨start, length⟩)

/-- Gives the reservation at an offset back. -/
def checkedRelease (allocator : Allocator) (offset : Nat) : Option (Option Allocator) :=
  match allocator.reservation? offset with
  | none => some none
  | some range => do
      let used ← Checked.sub allocator.used range.length
      let (before, after, joined) ← allocator.checkedJoin range
      let others := allocator.free.filter fun other => some other ≠ before ∧ some other ≠ after
      return some { allocator with
        free := insertOrdered joined others
        reserved := allocator.reserved.filter fun other => other.offset ≠ offset
        used := used }

/-- Whether `size` bytes would fit once the reservation at an offset were given back. -/
def checkedFits (allocator : Allocator) (size offset : Nat) : Option Bool := do
  match ← allocator.checkedLength size with
  | none => return false
  | some needed =>
      if needed ≤ allocator.largestFree then return true
      else match allocator.reservation? offset with
        | none => return false
        | some range =>
            let (_, _, joined) ← allocator.checkedJoin range
            return needed ≤ joined.length

/-- The bytes that are not reserved. -/
def checkedAvailable (allocator : Allocator) : Option Nat :=
  Checked.sub allocator.capacity allocator.used

/-! ## In a tiling no step fails -/

variable {allocator : Allocator} {size offset : Nat}

theorem checkedLength_eq (power : IsWordPower allocator.alignment) (size : Nat) :
    allocator.checkedLength size = some (allocator.reservedLength? size) := by
  have positive := power.pos
  have mask : wordBound - 1 - (allocator.alignment - 1) = wordBound - allocator.alignment := by
    omega
  rw [checkedLength, Checked.sub_eq positive, reservedLength?]
  by_cases word : size + (allocator.alignment - 1) < wordBound
  · simp [Checked.add, word, mask]
  · simp [Checked.add, word]

/-- A tiling has room beside its reservations for every free range. -/
theorem Tiled.used_add_le (tiled : allocator.Tiled) (member : range ∈ allocator.free) :
    allocator.used + range.length ≤ allocator.capacity := by
  have inside := (tiled.isGap_of_mem_free member).inside
  have apart : ∀ other ∈ allocator.reserved, range.Disjoint other := fun other otherMember =>
    (tiled.free_disjoint otherMember member).symm
  have both := insertOrdered_perm range allocator.reserved
  have ordered := ordered_insertOrdered tiled.ordered (tiled.free_pos range member) apart
  have bound := sum_length_le ordered (Nat.zero_le allocator.capacity) (fun _ _ => Nat.zero_le _)
    fun other otherMember => by
      rcases List.mem_cons.mp (both.mem_iff.mp otherMember) with rfl | old
      · exact inside
      · exact tiled.inside other old
  rw [(both.map Region.length).sum_nat, List.map_cons, List.sum_cons, ← tiled.used_eq] at bound
  omega

/-- **Reserving stays within the words.** -/
theorem Tiled.checkedAllocate_eq (tiled : allocator.Tiled) (word : allocator.capacity < wordBound)
    (size : Nat) : allocator.checkedAllocate size = some (allocator.allocate? size) := by
  rw [checkedAllocate, checkedLength_eq tiled.power, allocate?]
  cases allocator.reservedLength? size with
  | none => rfl
  | some needed =>
      simp only [Option.bind_eq_bind, Option.bind_some, takeFirst_eq tiled.separated]
      cases found : allocator.free.find? fun range => needed ≤ range.length with
      | none => rfl
      | some range =>
          have member := List.mem_of_find?_eq_some found
          have enough : needed ≤ range.length := by simpa using List.find?_some found
          have inside := (tiled.isGap_of_mem_free member).inside
          have room := tiled.used_add_le member
          have start : Checked.add range.offset needed = some (range.offset + needed) :=
            Checked.add_eq (by simp only [Region.stop] at inside; omega)
          have used : Checked.add allocator.used needed = some (allocator.used + needed) :=
            Checked.add_eq (by omega)
          have rest : Checked.sub range.length needed = some (range.length - needed) :=
            Checked.sub_eq enough
          by_cases short : needed < range.length
          · simp [short, start, used, rest]
          · simp [short, used]

/-- The end of a free range is a word. -/
theorem Tiled.checkedStop_eq (tiled : allocator.Tiled) (word : allocator.capacity < wordBound)
    (member : range ∈ allocator.free) :
    Checked.add range.offset range.length = some range.stop :=
  Checked.add_eq (Nat.lt_of_le_of_lt (tiled.isGap_of_mem_free member).inside word)

theorem Tiled.checkedBefore_eq (tiled : allocator.Tiled) (word : allocator.capacity < wordBound)
    (start : Nat) :
    allocator.checkedBefore start = some (allocator.free.find? fun other => other.stop = start) := by
  rw [getLast?_before tiled.separated tiled.free_pos start, checkedBefore]
  cases found : (allocator.free.filter fun other => other.offset < start).getLast? with
  | none => rfl
  | some last =>
      have member : last ∈ allocator.free :=
        List.mem_of_mem_filter (List.mem_of_getLast? found)
      simp [tiled.checkedStop_eq word member, Option.filter]

theorem Tiled.checkedEnd_eq (tiled : allocator.Tiled) (word : allocator.capacity < wordBound)
    (stop : Nat) :
    checkedEnd stop (allocator.free.find? fun other => other.offset = stop) =
      some (upperEnd allocator.free stop) := by
  rw [upperEnd]
  cases found : allocator.free.find? fun other => other.offset = stop with
  | none => rfl
  | some next =>
      have touch : next.offset = stop := by simpa using List.find?_some found
      rw [← touch]
      exact tiled.checkedStop_eq word (List.mem_of_find?_eq_some found)

/-- Joining a reservation with its free neighbours stays within the words. -/
theorem Tiled.checkedJoin_eq (tiled : allocator.Tiled) (word : allocator.capacity < wordBound)
    (member : range ∈ allocator.reserved) :
    allocator.checkedJoin range =
      some (allocator.free.find? fun other => other.stop = range.offset,
        allocator.free.find? fun other => other.offset = range.stop, allocator.joined range) := by
  have stop : Checked.add range.offset range.length = some range.stop :=
    Checked.add_eq (Nat.lt_of_le_of_lt (tiled.inside range member) word)
  have length : Checked.sub (upperEnd allocator.free range.stop)
      (lowerEnd allocator.free range.offset) = some (allocator.joined range).length :=
    Checked.sub_eq ((lowerEnd_le _ _).trans
      ((Nat.le_add_right range.offset range.length).trans (le_upperEnd _ _)))
  simp only [checkedJoin, stop, tiled.checkedBefore_eq word, Option.bind_eq_bind, Option.bind_some,
    tiled.checkedEnd_eq word]
  rw [← lowerEnd, length]
  rfl

/-- The neighbours that a lookup by position finds are those that touch. -/
theorem Tiled.apartFrom_eq (tiled : allocator.Tiled) (range : Region) :
    (allocator.free.filter fun other =>
        some other ≠ allocator.free.find? (fun before => before.stop = range.offset) ∧
          some other ≠ allocator.free.find? fun after => after.offset = range.stop) =
      apartFrom range allocator.free := by
  refine List.filter_congr fun other member => ?_
  have before := find?_eq_some_iff_of_only (fun before => before.stop = range.offset) member
    fun also alsoMember here there => tiled.separated.eq_of_end tiled.free_pos member alsoMember
      (Or.inr ((of_decide_eq_true here).trans (of_decide_eq_true there).symm))
  have after := find?_eq_some_iff_of_only (fun after => after.offset = range.stop) member
    fun also alsoMember here there => tiled.separated.eq_of_end tiled.free_pos member alsoMember
      (Or.inl ((of_decide_eq_true here).trans (of_decide_eq_true there).symm))
  rw [decide_eq_true_iff] at before after
  simp only [ne_comm (a := some other), Ne, before, after]

/-- **Giving back stays within the words.** -/
theorem Tiled.checkedRelease_eq (tiled : allocator.Tiled) (word : allocator.capacity < wordBound)
    (offset : Nat) : allocator.checkedRelease offset = some (allocator.release? offset) := by
  rw [checkedRelease, release?]
  cases found : allocator.reservation? offset with
  | none => rfl
  | some range =>
      have member : range ∈ allocator.reserved := List.mem_of_find?_eq_some found
      -- The reservation is one of those that `used` sums up, so the subtraction is exact.
      have less : range.length ≤ allocator.used := by
        rw [tiled.used_eq, ((tiled.reserved_perm member).map Region.length).sum_nat, List.map_cons,
          List.sum_cons]
        exact Nat.le_add_right _ _
      have back := giveBack_eq tiled.separated tiled.free_pos (tiled.reserved_pos range member)
        fun other otherMember => tiled.free_disjoint member otherMember
      simp only [Checked.sub_eq less, tiled.checkedJoin_eq word member, Option.bind_eq_bind,
        Option.bind_some, back, tiled.apartFrom_eq range]
      rfl

/-- **Asking for room stays within the words.** -/
theorem Tiled.checkedFits_eq (tiled : allocator.Tiled) (word : allocator.capacity < wordBound)
    (size offset : Nat) :
    allocator.checkedFits size offset = some (allocator.fitsAfterRelease size offset) := by
  rw [checkedFits, checkedLength_eq tiled.power, fitsAfterRelease]
  cases allocator.reservedLength? size with
  | none => rfl
  | some needed =>
      simp only [Option.bind_eq_bind, Option.bind_some]
      by_cases already : needed ≤ allocator.largestFree
      · simp [already]
      · rw [if_neg already, if_neg already]
        cases found : allocator.reservation? offset with
        | none => rfl
        | some range =>
            simp [tiled.checkedJoin_eq word (List.mem_of_find?_eq_some found)]

theorem Tiled.checkedAvailable_eq (tiled : allocator.Tiled) :
    allocator.checkedAvailable = some allocator.available :=
  Checked.sub_eq tiled.used_le

end Allocator

end LeaseCache
