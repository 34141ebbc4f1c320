import LeaseCache.Arena.Allocator
import Mathlib.Algebra.GroupWithZero.Nat
import Mathlib.Data.List.Pairwise

/-!
# Lists of ranges as sets of positions

The allocator keeps its free and its reserved ranges as lists, and what matters
about such a list is the set of positions it covers. Cutting a range out of the
free list removes the positions of the cut (`covers_takeFirst`), and giving a
range back adds its positions (`covers_giveBack`).

The free list is in order and leaves a gap between any two ranges. In such a
list every covered stretch of positions lies in a single range
(`exists_range_of_covered`), so what fits can be read off the covered positions.
-/

set_option autoImplicit false

namespace LeaseCache

/-- Whether a position lies in a range. -/
def Region.Has (region : Region) (position : Nat) : Prop :=
  region.offset ≤ position ∧ position < region.stop

/-- Whether a position lies in one of some ranges. -/
def Covers (ranges : List Region) (position : Nat) : Prop :=
  ∃ range ∈ ranges, range.Has position

/-- Two ranges of which one ends before the other begins. -/
def Region.Disjoint (first second : Region) : Prop :=
  first.stop ≤ second.offset ∨ second.stop ≤ first.offset

/-- Ranges in order, none of which meets the next. -/
def Ordered (ranges : List Region) : Prop :=
  ranges.Pairwise fun first second => first.stop ≤ second.offset

/-- Ranges in order with a gap between any two. -/
def Separated (ranges : List Region) : Prop :=
  ranges.Pairwise fun first second => first.stop < second.offset

instance : Std.Symm Region.Disjoint := ⟨fun _ _ => Or.symm⟩

theorem Region.Disjoint.not_has {first second : Region} (disjoint : first.Disjoint second)
    {position : Nat} (here : first.Has position) : ¬ second.Has position := by
  unfold Disjoint at disjoint
  unfold Has at *
  omega

/-- Ranges that share no position are disjoint. -/
theorem Region.disjoint_of_not_has {first second : Region} (nonempty : 0 < first.length)
    (other : 0 < second.length) (apart : ∀ position, first.Has position → ¬ second.Has position) :
    first.Disjoint second := by
  have here := apart (max first.offset second.offset)
  unfold Has stop at here
  unfold Disjoint stop
  omega

@[simp] theorem covers_nil (position : Nat) : ¬ Covers [] position := by
  rintro ⟨_, member, _⟩
  cases member

@[simp] theorem covers_cons (range : Region) (ranges : List Region) (position : Nat) :
    Covers (range :: ranges) position ↔ range.Has position ∨ Covers ranges position := by
  simp [Covers]

@[simp] theorem covers_append (front back : List Region) (position : Nat) :
    Covers (front ++ back) position ↔ Covers front position ∨ Covers back position := by
  simp [Covers, or_and_right, exists_or]

/-- Which positions are covered does not depend on the order of the ranges. -/
theorem covers_perm {ranges others : List Region} (same : ranges.Perm others) (position : Nat) :
    Covers ranges position ↔ Covers others position := by
  simp only [Covers, same.mem_iff]

theorem Separated.lt_or_lt {ranges : List Region} (separated : Separated ranges)
    {first second : Region} (firstIn : first ∈ ranges) (secondIn : second ∈ ranges)
    (different : first ≠ second) : first.stop < second.offset ∨ second.stop < first.offset := by
  have : Std.Symm fun (first second : Region) =>
      first.stop < second.offset ∨ second.stop < first.offset := ⟨fun _ _ => Or.symm⟩
  have either : ranges.Pairwise fun first second =>
      first.stop < second.offset ∨ second.stop < first.offset := separated.imp Or.inl
  exact either.forall firstIn secondIn different

/-- **A covered stretch lies in one range** of a list with gaps. -/
theorem exists_range_of_covered {ranges : List Region} (separated : Separated ranges)
    {start stop : Nat} (nonempty : start < stop)
    (covered : ∀ position, start ≤ position → position < stop → Covers ranges position) :
    ∃ range ∈ ranges, range.offset ≤ start ∧ stop ≤ range.stop := by
  obtain ⟨range, member, lower, upper⟩ := covered start (Nat.le_refl _) nonempty
  refine ⟨range, member, lower, Nat.le_of_not_lt fun short => ?_⟩
  -- The position right behind the range is covered too, by a range that would have to meet it.
  obtain ⟨other, otherMember, otherLower, otherUpper⟩ :=
    covered range.stop (Nat.le_of_lt upper) short
  have different : range ≠ other := by
    rintro rfl
    omega
  rcases separated.lt_or_lt member otherMember different with before | after <;> omega

namespace Allocator

/-! ## Cutting -/

/-- The first fit: the ranges before it are too short, and it is cut at its lower end. -/
theorem eq_of_takeFirst {needed offset : Nat} {ranges rest : List Region}
    (taken : takeFirst needed ranges = some (offset, rest)) :
    ∃ front range back, ranges = front ++ range :: back ∧ range.offset = offset ∧
      needed ≤ range.length ∧ (∀ short ∈ front, short.length < needed) ∧
      rest = front ++ (if needed < range.length then
        ⟨range.offset + needed, range.length - needed⟩ :: back else back) := by
  induction ranges generalizing rest with
  | nil => simp [takeFirst] at taken
  | cons first others ih =>
      by_cases fits : needed ≤ first.length
      · rw [takeFirst, if_pos fits] at taken
        obtain ⟨rfl, rfl⟩ := Prod.mk.inj (Option.some.inj taken)
        exact ⟨[], first, others, rfl, rfl, fits, by simp, rfl⟩
      · rw [takeFirst, if_neg fits] at taken
        obtain ⟨⟨found, remaining⟩, inner, same⟩ := Option.map_eq_some_iff.mp taken
        obtain ⟨rfl, rfl⟩ := Prod.mk.inj same
        obtain ⟨front, range, back, rfl, rfl, enough, short, rfl⟩ := ih inner
        refine ⟨first :: front, range, back, rfl, rfl, enough, ?_, rfl⟩
        intro other member
        rcases List.mem_cons.mp member with rfl | member
        · exact Nat.lt_of_not_le fits
        · exact short other member

/-- A range that is long enough makes the cut succeed. -/
theorem exists_takeFirst {needed : Nat} {ranges : List Region} {range : Region}
    (member : range ∈ ranges) (enough : needed ≤ range.length) :
    ∃ offset rest, takeFirst needed ranges = some (offset, rest) := by
  induction ranges with
  | nil => cases member
  | cons first others ih =>
      by_cases fits : needed ≤ first.length
      · exact ⟨_, _, by rw [takeFirst, if_pos fits]⟩
      · rcases List.mem_cons.mp member with rfl | member
        · exact absurd enough fits
        · obtain ⟨offset, rest, taken⟩ := ih member
          exact ⟨offset, first :: rest, by rw [takeFirst, if_neg fits, taken]; rfl⟩

/-- What a cut leaves covers what was covered, without the cut. -/
theorem covers_takeFirst {needed offset : Nat} {ranges rest : List Region}
    (separated : Separated ranges) (taken : takeFirst needed ranges = some (offset, rest))
    (position : Nat) :
    Covers rest position ↔ Covers ranges position ∧ ¬ (⟨offset, needed⟩ : Region).Has position := by
  obtain ⟨front, range, back, rfl, rfl, enough, _, rfl⟩ := eq_of_takeFirst taken
  obtain ⟨_, later, apart⟩ := List.pairwise_append.mp separated
  have before : Covers front position → ¬ (⟨range.offset, needed⟩ : Region).Has position := by
    rintro ⟨other, member, here⟩
    have := apart other member range List.mem_cons_self
    simp only [Region.Has, Region.stop] at *
    omega
  have behind : Covers back position → ¬ (⟨range.offset, needed⟩ : Region).Has position := by
    rintro ⟨other, member, here⟩
    have := (List.pairwise_cons.mp later).1 other member
    simp only [Region.Has, Region.stop] at *
    omega
  have remainder : needed < range.length →
      ((⟨range.offset + needed, range.length - needed⟩ : Region).Has position ↔
        range.Has position ∧ ¬ (⟨range.offset, needed⟩ : Region).Has position) := by
    simp only [Region.Has, Region.stop]
    omega
  have whole : ¬ needed < range.length →
      range.Has position → (⟨range.offset, needed⟩ : Region).Has position := by
    simp only [Region.Has, Region.stop]
    omega
  split
  · next short =>
      simp only [covers_append, covers_cons, remainder short]
      grind
  · next all =>
      have := whole all
      simp only [covers_append, covers_cons]
      grind

/-- The cut itself was covered. -/
theorem covers_of_takeFirst {needed offset : Nat} {ranges rest : List Region}
    (taken : takeFirst needed ranges = some (offset, rest)) {position : Nat}
    (here : (⟨offset, needed⟩ : Region).Has position) : Covers ranges position := by
  obtain ⟨front, range, back, rfl, rfl, enough, _, _⟩ := eq_of_takeFirst taken
  refine ⟨range, by simp, ?_⟩
  simp only [Region.Has, Region.stop] at *
  omega

theorem separated_takeFirst {needed offset : Nat} {ranges rest : List Region}
    (separated : Separated ranges) (taken : takeFirst needed ranges = some (offset, rest)) :
    Separated rest := by
  obtain ⟨front, range, back, rfl, rfl, enough, _, rfl⟩ := eq_of_takeFirst taken
  obtain ⟨first, later, apart⟩ := List.pairwise_append.mp separated
  obtain ⟨next, last⟩ := List.pairwise_cons.mp later
  split
  · refine List.pairwise_append.mpr ⟨first, List.pairwise_cons.mpr ⟨?_, last⟩, ?_⟩
    · intro other member
      have := next other member
      simp only [Region.stop] at *
      omega
    · intro before member other inside
      rcases List.mem_cons.mp inside with rfl | inside
      · have := apart before member range List.mem_cons_self
        simp only [Region.stop] at *
        omega
      · exact apart before member other (List.mem_cons_of_mem _ inside)
  · refine List.pairwise_append.mpr ⟨first, last, fun before member other inside => ?_⟩
    exact apart before member other (List.mem_cons_of_mem _ inside)

/-- What a cut leaves are ranges from before and, if the cut is shorter than its range, the
upper end of that range. -/
theorem mem_of_takeFirst {needed offset : Nat} {ranges rest : List Region}
    (taken : takeFirst needed ranges = some (offset, rest)) {range : Region}
    (member : range ∈ rest) :
    range ∈ ranges ∨ range.offset = offset + needed ∧ 0 < range.length := by
  obtain ⟨front, first, back, rfl, rfl, enough, _, rfl⟩ := eq_of_takeFirst taken
  rcases List.mem_append.mp member with before | behind
  · exact Or.inl (List.mem_append_left _ before)
  · split at behind
    · next short =>
        rcases List.mem_cons.mp behind with rfl | behind
        · exact Or.inr ⟨rfl, Nat.sub_pos_of_lt short⟩
        · exact Or.inl (by simp [behind])
    · exact Or.inl (by simp [behind])

/-- The cut begins where some range began. -/
theorem exists_offset_of_takeFirst {needed offset : Nat} {ranges rest : List Region}
    (taken : takeFirst needed ranges = some (offset, rest)) :
    ∃ range ∈ ranges, range.offset = offset := by
  obtain ⟨front, range, back, rfl, rfl, _⟩ := eq_of_takeFirst taken
  exact ⟨range, by simp, rfl⟩

/-! ## Keeping reservations in order -/

theorem insertOrdered_perm (range : Region) (ranges : List Region) :
    (insertOrdered range ranges).Perm (range :: ranges) := by
  induction ranges with
  | nil => exact List.Perm.refl _
  | cons first rest ih =>
      rw [insertOrdered]
      split
      · exact List.Perm.refl _
      · exact (ih.cons first).trans (List.Perm.swap _ _ _)

theorem ordered_insertOrdered {range : Region} {ranges : List Region} (ordered : Ordered ranges)
    (nonempty : 0 < range.length) (disjoint : ∀ other ∈ ranges, range.Disjoint other) :
    Ordered (insertOrdered range ranges) := by
  induction ranges with
  | nil => exact List.pairwise_singleton _ _
  | cons first rest ih =>
      obtain ⟨least, later⟩ := List.pairwise_cons.mp ordered
      have apart := disjoint first List.mem_cons_self
      rw [insertOrdered]
      split
      · next before =>
          have ahead : range.stop ≤ first.offset := by
            simp only [Region.Disjoint, Region.stop] at *
            omega
          refine List.pairwise_cons.mpr ⟨fun other member => ?_, ordered⟩
          rcases List.mem_cons.mp member with rfl | member
          · exact ahead
          · have := least other member
            simp only [Region.stop] at *
            omega
      · next behind =>
          refine List.pairwise_cons.mpr ⟨fun other member => ?_, ih later fun other member =>
            disjoint other (List.mem_cons_of_mem _ member)⟩
          rcases List.mem_cons.mp ((insertOrdered_perm _ _).mem_iff.mp member) with rfl | member
          · simp only [Region.Disjoint, Region.stop] at *
            omega
          · exact least other member

/-- Ranges in order inside of bounds are no longer together than the bounds are apart. -/
theorem sum_length_le {ranges : List Region} {lower upper : Nat} (ordered : Ordered ranges)
    (bounds : lower ≤ upper) (above : ∀ range ∈ ranges, lower ≤ range.offset)
    (below : ∀ range ∈ ranges, range.stop ≤ upper) :
    lower + (ranges.map Region.length).sum ≤ upper := by
  induction ranges generalizing lower with
  | nil => simpa using bounds
  | cons first rest ih =>
      obtain ⟨least, later⟩ := List.pairwise_cons.mp ordered
      have start := above first List.mem_cons_self
      have tail := ih later (below first List.mem_cons_self) least fun range member =>
        below range (List.mem_cons_of_mem _ member)
      simp only [List.map_cons, List.sum_cons, Region.stop] at *
      omega

/-! ## Giving back -/

theorem covers_joinNext (range : Region) (ranges : List Region) (position : Nat) :
    Covers (joinNext range ranges) position ↔ range.Has position ∨ Covers ranges position := by
  cases ranges with
  | nil => simp [joinNext]
  | cons next rest =>
      rw [joinNext]
      split
      · next touch =>
          have both : (⟨range.offset, range.length + next.length⟩ : Region).Has position ↔
              range.Has position ∨ next.Has position := by
            simp only [Region.Has, Region.stop] at *
            omega
          simp only [covers_cons, both, or_assoc]
      · simp only [covers_cons]

/-- Giving a range back adds its positions to the free ones. -/
theorem covers_giveBack (range : Region) (ranges : List Region) (position : Nat) :
    Covers (giveBack range ranges) position ↔ range.Has position ∨ Covers ranges position := by
  induction ranges with
  | nil => simp [giveBack]
  | cons first rest ih =>
      rw [giveBack]
      split
      · exact covers_joinNext _ _ _
      · split
        · next touch =>
            have both : (⟨first.offset, first.length + range.length⟩ : Region).Has position ↔
                first.Has position ∨ range.Has position := by
              simp only [Region.Has, Region.stop] at *
              omega
            rw [covers_joinNext, both, covers_cons, or_left_comm, or_assoc]
        · rw [covers_cons, ih, covers_cons, or_left_comm]

theorem separated_joinNext {range : Region} {ranges : List Region} (separated : Separated ranges)
    (ahead : ∀ other ∈ ranges, range.stop ≤ other.offset) : Separated (joinNext range ranges) := by
  cases ranges with
  | nil => exact List.pairwise_singleton _ _
  | cons next rest =>
      obtain ⟨least, later⟩ := List.pairwise_cons.mp separated
      have touching := ahead next List.mem_cons_self
      rw [joinNext]
      split
      · next touch =>
          refine List.pairwise_cons.mpr ⟨fun other member => ?_, later⟩
          have := least other member
          simp only [Region.stop] at *
          omega
      · next gap =>
          refine List.pairwise_cons.mpr ⟨fun other member => ?_, separated⟩
          rcases List.mem_cons.mp member with rfl | member
          · omega
          · have := least other member
            simp only [Region.stop] at *
            omega

theorem mem_joinNext {range joined : Region} {ranges : List Region}
    (member : joined ∈ joinNext range ranges) :
    joined ∈ ranges ∨ joined.offset = range.offset ∧ range.length ≤ joined.length := by
  cases ranges with
  | nil =>
      obtain rfl := List.mem_singleton.mp member
      exact Or.inr ⟨rfl, Nat.le_refl _⟩
  | cons next rest =>
      rw [joinNext] at member
      split at member
      · rcases List.mem_cons.mp member with rfl | member
        · exact Or.inr ⟨rfl, Nat.le_add_right _ _⟩
        · exact Or.inl (List.mem_cons_of_mem _ member)
      · rcases List.mem_cons.mp member with rfl | member
        · exact Or.inr ⟨rfl, Nat.le_refl _⟩
        · exact Or.inl member

/-- Every range after a return begins where some range began, and none is empty. -/
theorem mem_giveBack {range joined : Region} {ranges : List Region}
    (member : joined ∈ giveBack range ranges) :
    ∃ source ∈ range :: ranges, joined.offset = source.offset ∧ source.length ≤ joined.length := by
  induction ranges with
  | nil =>
      obtain rfl := List.mem_singleton.mp member
      exact ⟨joined, List.mem_cons_self, rfl, Nat.le_refl _⟩
  | cons first rest ih =>
      rw [giveBack] at member
      split at member
      · rcases mem_joinNext member with kept | ⟨same, longer⟩
        · exact ⟨joined, List.mem_cons_of_mem _ kept, rfl, Nat.le_refl _⟩
        · exact ⟨range, List.mem_cons_self, same, longer⟩
      · split at member
        · rcases mem_joinNext member with kept | ⟨same, longer⟩
          · exact ⟨joined, by simp [kept], rfl, Nat.le_refl _⟩
          · exact ⟨first, by simp, same, Nat.le_of_add_right_le longer⟩
        · rcases List.mem_cons.mp member with rfl | member
          · exact ⟨joined, by simp, rfl, Nat.le_refl _⟩
          · obtain ⟨source, sourceMember, same, longer⟩ := ih member
            refine ⟨source, ?_, same, longer⟩
            rcases List.mem_cons.mp sourceMember with rfl | sourceMember
            · exact List.mem_cons_self
            · simp [sourceMember]

/-- Giving a range back leaves gaps between the free ranges. -/
theorem separated_giveBack {range : Region} {ranges : List Region} (separated : Separated ranges)
    (nonempty : 0 < range.length) (disjoint : ∀ other ∈ ranges, range.Disjoint other) :
    Separated (giveBack range ranges) := by
  induction ranges with
  | nil => exact List.pairwise_singleton _ _
  | cons first rest ih =>
      obtain ⟨least, later⟩ := List.pairwise_cons.mp separated
      have apart := disjoint first List.mem_cons_self
      have apartRest : ∀ other ∈ rest, range.Disjoint other := fun other member =>
        disjoint other (List.mem_cons_of_mem _ member)
      rw [giveBack]
      split
      · next before =>
          refine separated_joinNext separated fun other member => ?_
          rcases List.mem_cons.mp member with rfl | member
          · simp only [Region.Disjoint, Region.stop] at *
            omega
          · have := least other member
            simp only [Region.Disjoint, Region.stop] at *
            omega
      · next behind =>
          split
          · next touch =>
              refine separated_joinNext later fun other member => ?_
              have := least other member
              have := apartRest other member
              simp only [Region.Disjoint, Region.stop] at *
              omega
          · next gap =>
              refine List.pairwise_cons.mpr ⟨fun other member => ?_, ih later apartRest⟩
              obtain ⟨source, sourceMember, same, _⟩ := mem_giveBack member
              rw [same]
              rcases List.mem_cons.mp sourceMember with rfl | sourceMember
              · simp only [Region.Disjoint, Region.stop] at *
                omega
              · exact least source sourceMember

end Allocator

end LeaseCache
