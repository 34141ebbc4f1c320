import Mathlib.Data.List.Dedup
import Mathlib.Data.List.DropRight
import Mathlib.Data.List.Perm.Basic

/-!
# The most recent members of a history

In a history the latest event stands last. Without its repetitions, each member
at the place of its last occurrence (`List.dedup`), it is the order of last use,
and the most recent members are the last ones of it (`List.rtake`).

A store of limited size that keeps this order does not need the whole history:
using a member moves it to the end, and cutting the result at the limit gives
the most recent members of the longer history (`useAll_rtake_dedup`).
-/

set_option autoImplicit false

namespace LeaseCache

namespace MostRecent

universe u

variable {α : Type u} {members : List α} {limit : Nat}

/-! ## Ends of lists -/

theorem rtake_of_length_le (short : members.length ≤ limit) : members.rtake limit = members := by
  rw [List.rtake, Nat.sub_eq_zero_of_le short, List.drop_zero]

theorem rtake_append_of_le_length (front : List α) (long : limit ≤ members.length) :
    (front ++ members).rtake limit = members.rtake limit := by
  have behind : front.length + members.length - limit =
      front.length + (members.length - limit) := by omega
  rw [List.rtake, List.rtake, List.length_append, behind, ← List.drop_drop, List.drop_left]

theorem length_rtake (members : List α) (limit : Nat) :
    (members.rtake limit).length = min limit members.length := by
  rw [List.rtake, List.length_drop]
  omega

/-- A limit beyond the number of members cuts nothing off. -/
theorem rtake_min_length (members : List α) (limit : Nat) :
    members.rtake (min limit members.length) = members.rtake limit := by
  rcases Nat.le_total limit members.length with short | long
  · rw [Nat.min_eq_left short]
  · rw [Nat.min_eq_right long, rtake_of_length_le (Nat.le_refl _), rtake_of_length_le long]

variable [DecidableEq α]

/-- Removing one member from distinct ones makes the list shorter by one at most. -/
theorem length_filter_ne (distinct : members.Nodup) (member : α) :
    members.length ≤ (members.filter (· ≠ member)).length + 1 := by
  have shorter := List.le_length_erase (a := member) (l := members)
  rw [distinct.erase_eq_filter member] at shorter
  simpa [bne, beq_eq_decide] using shorter

/-! ## Using a member -/

/-- The members after one was used, of which as many are kept as the limit allows. -/
def use (limit : Nat) (member : α) (members : List α) : List α :=
  (members.filter (· ≠ member) ++ [member]).rtake limit

/-- With room for one more, nothing is cut off. -/
theorem use_of_room {member : α} (room : (members.filter (· ≠ member)).length < limit) :
    use limit member members = members.filter (· ≠ member) ++ [member] := by
  refine rtake_of_length_le ?_
  rw [List.length_append]
  exact room

/-- A new member of a full list takes the place of the oldest one. -/
theorem use_of_full {member oldest : α} {rest : List α} (absent : member ∉ oldest :: rest)
    (full : (oldest :: rest).length = limit) :
    use limit member (oldest :: rest) = rest ++ [member] := by
  have kept : (oldest :: rest).filter (· ≠ member) = [oldest] ++ rest := by
    refine List.filter_eq_self.mpr fun other inside => decide_eq_true ?_
    rintro rfl
    exact absent inside
  have length : (rest ++ [member]).length = limit := by
    rw [← full, List.length_append]
    rfl
  rw [use, kept, List.append_assoc, rtake_append_of_le_length _ (Nat.le_of_eq length.symm),
    rtake_of_length_le (Nat.le_of_eq length)]

theorem mem_use_of_room {member name : α}
    (room : (members.filter (· ≠ member)).length < limit) :
    name ∈ use limit member members ↔ name = member ∨ name ∈ members := by
  rw [use_of_room room]
  by_cases here : name = member <;> simp [here]

theorem mem_use_of_full {member oldest name : α} {rest : List α}
    (distinct : (oldest :: rest).Nodup) (absent : member ∉ oldest :: rest)
    (full : (oldest :: rest).length = limit) : name ∈ use limit member (oldest :: rest) ↔
      name = member ∨ name ∈ oldest :: rest ∧ name ≠ oldest := by
  obtain ⟨once, -⟩ := List.nodup_cons.mp distinct
  rw [use_of_full absent full, List.mem_append, List.mem_singleton, List.mem_cons]
  constructor
  · rintro (inside | here)
    · refine Or.inr ⟨Or.inr inside, ?_⟩
      rintro rfl
      exact once inside
    · exact Or.inl here
  · rintro (here | ⟨first | inside, other⟩)
    · exact Or.inr here
    · exact absurd first other
    · exact Or.inl inside

/-- Members that the limit cuts off beforehand make no difference. -/
theorem use_rtake (distinct : members.Nodup) (limit : Nat) (member : α) :
    use limit member (members.rtake limit) = use limit member members := by
  cases limit with
  | zero => simp [use]
  | succ limit =>
      rw [use, use, List.rtake_concat_succ, List.rtake_concat_succ]
      congr 1
      by_cases short : members.length ≤ limit + 1
      · rw [rtake_of_length_le short]
      · -- The filter takes one member at most, so the last ones fill the limit without the front.
        have split : members.take (members.length - (limit + 1)) ++ members.rtake (limit + 1) =
            members := List.take_append_drop _ _
        have last : (members.rtake (limit + 1)).Nodup := distinct.sublist (List.drop_sublist _ _)
        have enough := length_filter_ne last member
        rw [length_rtake] at enough
        conv_rhs => rw [← split, List.filter_append]
        rw [rtake_append_of_le_length _ (by omega)]

/-- A longer history has the new event last, and no earlier occurrence of it counts. -/
theorem dedup_concat (history : List α) (member : α) :
    (history ++ [member]).dedup = history.dedup.filter (· ≠ member) ++ [member] := by
  induction history with
  | nil => rfl
  | cons first rest ih =>
      rw [List.cons_append, List.dedup_cons, List.dedup_cons, ih]
      by_cases again : first ∈ rest
      · rw [if_pos (List.mem_append_left _ again), if_pos again]
      · by_cases same : first = member
        · rw [if_pos (by simp [same]), if_neg again, List.filter_cons_of_neg (by simp [same])]
        · rw [if_neg (by simp [again, same]), if_neg again,
            List.filter_cons_of_pos (by simp [same]), List.cons_append]

/-- **Using a member of the most recent ones gives the most recent ones of the longer history.** -/
theorem use_rtake_dedup (history : List α) (limit : Nat) (member : α) :
    use limit member (history.dedup.rtake limit) = (history ++ [member]).dedup.rtake limit := by
  rw [use_rtake history.nodup_dedup, use, dedup_concat]

/-- The members after some were used, one after the other. -/
def useAll (limit : Nat) (members events : List α) : List α :=
  events.foldl (fun members event => use limit event members) members

theorem useAll_append (limit : Nat) (members events more : List α) :
    useAll limit members (events ++ more) = useAll limit (useAll limit members events) more :=
  List.foldl_append

/-- **Using one member after the other gives the most recent members of the whole history.** -/
theorem useAll_rtake_dedup (limit : Nat) (history events : List α) :
    useAll limit (history.dedup.rtake limit) events = (history ++ events).dedup.rtake limit := by
  induction events generalizing history with
  | nil => rw [useAll, List.foldl_nil, List.append_nil]
  | cons event rest ih =>
      have longer := ih (history ++ [event])
      rw [List.append_assoc, List.singleton_append] at longer
      rw [useAll, List.foldl_cons, use_rtake_dedup]
      exact longer

theorem useAll_nil (limit : Nat) (events : List α) :
    useAll limit [] events = events.dedup.rtake limit := by
  have fresh := useAll_rtake_dedup limit [] events
  rwa [List.dedup_nil, List.rtake_nil, List.nil_append] at fresh

end MostRecent

end LeaseCache
