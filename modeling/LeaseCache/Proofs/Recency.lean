import LeaseCache.Recency
import Mathlib.Data.List.Pairwise

/-!
# The records of last use

The stamps of a recency index grow along its records, and none is ahead of the
clock (`Recency.Stamped`). So a stamp names at most one record, and removing or
touching it concerns that record only.

A user that keeps one record a key does two things to the index: it forgets a
key (`Recency.forget`) or puts a key at the end under the next stamp
(`Recency.renew`). Inserting, touching and removing by stamp come down to these
two (`Stamped.remove_eq`, `Stamped.touch_eq`).
-/

set_option autoImplicit false

namespace LeaseCache

namespace Recency

/-- The stamps grow along the records, and none is ahead of the clock. -/
structure Stamped (recency : Recency) : Prop where
  growing : recency.records.Pairwise fun first second => first.stamp < second.stamp
  stamp_le : ∀ record ∈ recency.records, record.stamp ≤ recency.clock

/-- The index without the records of a key. -/
def forget (recency : Recency) (key : Key) : Recency :=
  { recency with records := recency.records.filter fun record => record.key ≠ key }

/-- The index with a key at the end, under the next stamp, and nowhere else. -/
def renew (recency : Recency) (key : Key) : Recency :=
  ⟨recency.clock + 1, (recency.forget key).records ++ [⟨recency.clock + 1, key⟩]⟩

variable {recency : Recency} {stamp : Nat} {key : Key} {record : Record}

@[simp] theorem keys_forget (recency : Recency) (key : Key) :
    (recency.forget key).keys = recency.keys.filter (· ≠ key) := by
  rw [keys, keys, List.filter_map]
  rfl

@[simp] theorem keys_renew (recency : Recency) (key : Key) :
    (recency.renew key).keys = recency.keys.filter (· ≠ key) ++ [key] := by
  rw [← keys_forget, keys, renew, List.map_append]
  rfl

theorem mem_forget : record ∈ (recency.forget key).records ↔
    record ∈ recency.records ∧ record.key ≠ key := by
  simp [forget]

theorem mem_renew : record ∈ (recency.renew key).records ↔
    record ∈ recency.records ∧ record.key ≠ key ∨ record = ⟨recency.clock + 1, key⟩ := by
  simp [renew, mem_forget]

/-! ## Growing stamps -/

theorem stamped_empty : Recency.empty.Stamped :=
  ⟨List.Pairwise.nil, by simp [empty]⟩

theorem Stamped.forget (stamped : recency.Stamped) (key : Key) : (recency.forget key).Stamped :=
  ⟨stamped.growing.filter _, fun record member => stamped.stamp_le record (mem_forget.mp member).1⟩

theorem Stamped.renew (stamped : recency.Stamped) (key : Key) : (recency.renew key).Stamped where
  growing := by
    refine List.pairwise_append.mpr ⟨(stamped.forget key).growing, List.pairwise_singleton _ _, ?_⟩
    intro record member last newest
    obtain rfl := List.mem_singleton.mp newest
    exact Nat.lt_succ_of_le ((stamped.forget key).stamp_le record member)
  stamp_le record member := by
    rcases mem_renew.mp member with ⟨older, -⟩ | rfl
    · exact Nat.le_succ_of_le (stamped.stamp_le record older)
    · exact Nat.le_refl _

/-- A stamp names at most one record. -/
theorem Stamped.eq_of_stamp (stamped : recency.Stamped) {first second : Record}
    (firstIn : first ∈ recency.records) (secondIn : second ∈ recency.records)
    (same : first.stamp = second.stamp) : first = second := by
  by_contra different
  have either : recency.records.Pairwise fun first second => first.stamp ≠ second.stamp :=
    stamped.growing.imp Nat.ne_of_lt
  have : Std.Symm fun first second : Record => first.stamp ≠ second.stamp := ⟨fun _ _ => Ne.symm⟩
  exact either.forall firstIn secondIn different same

theorem Stamped.find?_eq_some (stamped : recency.Stamped)
    (member : ⟨stamp, key⟩ ∈ recency.records) : recency.find? stamp = some key := by
  obtain ⟨record, found⟩ : ∃ record, recency.records.find?
      (fun record => record.stamp = stamp) = some record := by
    rw [← Option.isSome_iff_exists, List.find?_isSome]
    exact ⟨_, member, decide_eq_true rfl⟩
  have here : record.stamp = stamp := by simpa using List.find?_some found
  obtain rfl : record = ⟨stamp, key⟩ :=
    stamped.eq_of_stamp (List.mem_of_find?_eq_some found) member here
  rw [find?, found]
  rfl

/-! ## Removing and touching by stamp -/

/-- Removing a stamp leaves the records under other stamps, whether it is recorded or not. -/
theorem remove_eq (recency : Recency) (stamp : Nat) :
    (recency.remove stamp).2 = { recency with records := recency.without stamp } := by
  unfold remove
  split
  · next absent =>
      have others : ∀ record ∈ recency.records, decide (record.stamp ≠ stamp) = true := by
        intro record member
        simpa using List.find?_eq_none.mp (Option.map_eq_none_iff.mp absent) record member
      rw [without, List.filter_eq_self.mpr others]
  · rfl

/-- If a stamp is recorded for a key that has no other record, the records under other stamps are
the records of other keys. -/
theorem Stamped.without_eq (stamped : recency.Stamped)
    (only : ∀ other, ⟨other, key⟩ ∈ recency.records ↔ other = stamp) :
    recency.without stamp = (recency.forget key).records := by
  refine List.filter_congr fun record member => ?_
  have same : record.stamp = stamp ↔ record.key = key := by
    constructor
    · intro here
      rw [stamped.eq_of_stamp member ((only stamp).mpr rfl) here]
    · rintro rfl
      exact (only record.stamp).mp member
  simp [same]

/-- Removing the stamp of the one record of a key forgets the key. -/
theorem Stamped.remove_eq (stamped : recency.Stamped)
    (only : ∀ other, ⟨other, key⟩ ∈ recency.records ↔ other = stamp) :
    (recency.remove stamp).2 = recency.forget key := by
  rw [Recency.remove_eq, stamped.without_eq only]
  rfl

/-- Touching the stamp of the one record of a key renews the key. -/
theorem Stamped.touch_eq (stamped : recency.Stamped)
    (only : ∀ other, ⟨other, key⟩ ∈ recency.records ↔ other = stamp) :
    recency.touch stamp = (some (recency.clock + 1), recency.renew key) := by
  rw [touch, stamped.find?_eq_some ((only stamp).mpr rfl)]
  dsimp only
  rw [stamped.without_eq only]
  rfl

end Recency

end LeaseCache
