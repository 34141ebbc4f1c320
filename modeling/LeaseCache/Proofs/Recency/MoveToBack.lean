import LeaseCache.Limits
import LeaseCache.Proofs.Recency
import Mathlib.Data.List.Range

/-!
# A recency index moves to the back

Whoever uses a recency index can keep a register of it: an entry for each key that was
inserted and not removed, with the stamp by which it is known now and the place in the
history of its last insertion or touch (`register`). In the register nothing is ever moved.
The index, which does move its records, lists exactly the entries of the register in the
order of these places (`movesToBack_of_run`).

The stamps are the numbers from one on in the order in which they are issued, whether they
are recorded or not. So they grow, a stored one names one record, and one that was touched
or removed is behind the clock for good (`Spent`).

One action keeps all of this (`Booked.act`), and a run keeps it by induction from its end.
-/

set_option autoImplicit false

namespace LeaseCache

namespace Recency

/-! ## Runs and what they answer -/

/-- What can be done with an index. -/
inductive Action where
  | tick
  | insert (key : Key)
  | touch (stamp : Nat)
  | remove (stamp : Nat)
  deriving DecidableEq

/-- What an action gives: the stamp that it issued, the key that it removed, or nothing because
there is no record under the stamp. -/
inductive Answer where
  | issued (stamp : Nat)
  | removed (key : Key)
  | absent
  deriving DecidableEq

/-- An action with its answer. -/
structure Event where
  action : Action
  answer : Answer
  deriving DecidableEq

/-- The answer to an action and the index after it. -/
def act (recency : Recency) : Action → Answer × Recency
  | .tick => (.issued recency.tick.1, recency.tick.2)
  | .insert key => (.issued (recency.insert key).1, (recency.insert key).2)
  | .touch stamp => ((recency.touch stamp).1.elim .absent .issued, (recency.touch stamp).2)
  | .remove stamp => ((recency.remove stamp).1.elim .absent .removed, (recency.remove stamp).2)

/-- The index after some actions. -/
def run : Recency → List Action → Recency
  | recency, [] => recency
  | recency, action :: rest => (recency.act action).2.run rest

/-- Some actions with their answers. -/
def history : Recency → List Action → List Event
  | _, [] => []
  | recency, action :: rest =>
      ⟨action, (recency.act action).1⟩ :: (recency.act action).2.history rest

/-- The stored stamps, oldest first. -/
def stamps (recency : Recency) : List Nat := recency.records.map Record.stamp

/-! ## What a history tells -/

/-- The stamp that an event issued. -/
def Event.issued? (event : Event) : Option Nat :=
  match event.answer with
  | .issued stamp => some stamp
  | _ => none

/-- The key that an event removed. -/
def Event.removed? (event : Event) : Option Key :=
  match event.answer with
  | .removed key => some key
  | _ => none

/-- The key that an event inserted. -/
def Event.inserted? (event : Event) : Option Key :=
  match event.action with
  | .insert key => some key
  | _ => none

/-- A key that was inserted and not removed, the stamp by which it is known, and the place in the
history of the action that inserted it or touched it last. -/
structure Entry where
  key : Key
  stamp : Nat
  lastUse : Nat
  deriving DecidableEq

/-- The record that an entry of the register has in the index. -/
def Entry.record (entry : Entry) : Record := ⟨entry.stamp, entry.key⟩

/-- An entry that is touched under a stamp has a new stamp and a new last use. -/
def Entry.touched (old stamp place : Nat) (entry : Entry) : Entry :=
  if entry.stamp = old then { entry with stamp := stamp, lastUse := place } else entry

/-- The register after one more event at a place in the history. Entries stay where they are. -/
def book (register : List Entry) (place : Nat) : Event → List Entry
  | ⟨.insert key, .issued stamp⟩ => register ++ [⟨key, stamp, place⟩]
  | ⟨.touch old, .issued stamp⟩ => register.map (Entry.touched old stamp place)
  | ⟨.remove stamp, .removed _⟩ => register.filter fun entry => entry.stamp ≠ stamp
  | _ => register

/-- The entries that were inserted and not removed in a history, in the order of insertion. -/
def register (history : List Event) : List Entry :=
  history.zipIdx.foldl (fun register (event, place) => book register place event) []

variable {recency : Recency} {action : Action} {actions : List Action} {events : List Event}
  {stamp place : Nat} {key : Key} {entries : List Entry}

theorem run_append (recency : Recency) (actions more : List Action) :
    recency.run (actions ++ more) = (recency.run actions).run more := by
  induction actions generalizing recency with
  | nil => rfl
  | cons action rest ih => exact ih _

theorem register_concat (events : List Event) (event : Event) :
    register (events ++ [event]) = book (register events) events.length event := by
  rw [register, List.zipIdx_append, List.foldl_append, Nat.zero_add]
  rfl

/-! ## Single records -/

theorem find?_eq_none_iff : recency.find? stamp = none ↔ stamp ∉ recency.stamps := by
  rw [find?, Option.map_eq_none_iff, List.find?_eq_none]
  simp [stamps]

theorem mem_records_of_find? (found : recency.find? stamp = some key) :
    ⟨stamp, key⟩ ∈ recency.records := by
  obtain ⟨record, here, rfl⟩ := Option.map_eq_some_iff.mp found
  have same : record.stamp = stamp := by simpa using List.find?_some here
  subst same
  exact List.mem_of_find?_eq_some here

theorem touch_of_absent (absent : stamp ∉ recency.stamps) :
    recency.touch stamp = (none, recency) := by
  rw [touch, find?_eq_none_iff.mpr absent]

theorem remove_of_absent (absent : stamp ∉ recency.stamps) :
    recency.remove stamp = (none, recency) := by
  rw [remove, find?_eq_none_iff.mpr absent]

theorem touch_of_found (found : recency.find? stamp = some key) :
    recency.touch stamp = (some (recency.clock + 1),
      ⟨recency.clock + 1, recency.without stamp ++ [⟨recency.clock + 1, key⟩]⟩) := by
  rw [touch, found]

theorem remove_of_found (found : recency.find? stamp = some key) :
    recency.remove stamp = (some key, { recency with records := recency.without stamp }) := by
  rw [remove, found]

/-- A stored record stands between records under other stamps. -/
theorem Stamped.exists_split (stamped : recency.Stamped)
    (found : recency.find? stamp = some key) : ∃ front back,
      recency.records = front ++ ⟨stamp, key⟩ :: back ∧ recency.without stamp = front ++ back ∧
        ∀ record ∈ front ++ back, record.stamp ≠ stamp := by
  obtain ⟨front, back, split⟩ := List.mem_iff_append.mp (mem_records_of_find? found)
  have growing := stamped.growing
  rw [split, List.pairwise_append, List.pairwise_cons] at growing
  obtain ⟨-, ⟨after, -⟩, before⟩ := growing
  have others : ∀ record ∈ front ++ back, record.stamp ≠ stamp := by
    intro record member
    rcases List.mem_append.mp member with earlier | later
    · exact Nat.ne_of_lt (before record earlier _ List.mem_cons_self)
    · exact Nat.ne_of_gt (after record later)
  refine ⟨front, back, split, ?_, others⟩
  have kept := List.filter_eq_self.mpr fun record member => decide_eq_true (others record member)
  rwa [without, split, List.filter_append, List.filter_cons_of_neg (by simp),
    ← List.filter_append]

/-- Records under new stamps are put behind the others. -/
theorem Stamped.concat (stamped : recency.Stamped) {records : List Record}
    (fewer : records.Sublist recency.records) (key : Key) :
    Stamped ⟨recency.clock + 1, records ++ [⟨recency.clock + 1, key⟩]⟩ where
  growing := by
    refine List.pairwise_append.mpr
      ⟨stamped.growing.sublist fewer, List.pairwise_singleton _ _, ?_⟩
    intro record member last newest
    obtain rfl := List.mem_singleton.mp newest
    exact Nat.lt_succ_of_le (stamped.stamp_le record (fewer.subset member))
  stamp_le record member := by
    rcases List.mem_append.mp member with older | newest
    · exact Nat.le_succ_of_le (stamped.stamp_le record (fewer.subset older))
    · obtain rfl := List.mem_singleton.mp newest
      exact Nat.le_refl _

theorem Stamped.fewer (stamped : recency.Stamped) {records : List Record}
    (fewer : records.Sublist recency.records) {clock : Nat} (later : recency.clock ≤ clock) :
    Stamped ⟨clock, records⟩ where
  growing := stamped.growing.sublist fewer
  stamp_le record member := Nat.le_trans (stamped.stamp_le record (fewer.subset member)) later

/-! ## The register in the order of last use -/

/-- Some records are those of a register in the order of the last uses, all of which lie before a
place in the history. -/
def Lists (entries : List Entry) (place : Nat) (records : List Record) : Prop :=
  ∃ ordered : List Entry, ordered.Perm entries ∧
    ordered.Pairwise (fun first second => first.lastUse < second.lastUse) ∧
    (∀ entry ∈ ordered, entry.lastUse < place) ∧ ordered.map Entry.record = records

variable {records front back : List Record} {old : Nat}

namespace Lists

theorem later (lists : Lists entries place records) : Lists entries (place + 1) records := by
  obtain ⟨ordered, same, growing, before, listed⟩ := lists
  exact ⟨ordered, same, growing, fun entry member => Nat.lt_succ_of_lt (before entry member),
    listed⟩

theorem insert (lists : Lists entries place records) (stamp : Nat) (key : Key) :
    Lists (entries ++ [⟨key, stamp, place⟩]) (place + 1) (records ++ [⟨stamp, key⟩]) := by
  obtain ⟨ordered, same, growing, before, rfl⟩ := lists
  refine ⟨ordered ++ [⟨key, stamp, place⟩], same.append_right _, ?_, ?_, ?_⟩
  · refine List.pairwise_append.mpr ⟨growing, List.pairwise_singleton _ _, ?_⟩
    intro entry member last newest
    obtain rfl := List.mem_singleton.mp newest
    exact before entry member
  · intro entry member
    rcases List.mem_append.mp member with older | newest
    · exact Nat.lt_succ_of_lt (before entry older)
    · obtain rfl := List.mem_singleton.mp newest
      exact Nat.lt_succ_self _
  · rw [List.map_append]
    rfl

/-- The entry of a record stands between the entries of the other records. -/
theorem exists_entry {ordered : List Entry}
    (split : ordered.map Entry.record = front ++ ⟨old, key⟩ :: back) :
    ∃ (first last : List Entry) (lastUse : Nat), ordered = first ++ ⟨key, old, lastUse⟩ :: last ∧
      first.map Entry.record = front ∧ last.map Entry.record = back := by
  obtain ⟨first, others, rfl, listed, rest⟩ := List.map_eq_append_iff.mp split
  obtain ⟨entry, last, rfl, here, listedLast⟩ := List.map_eq_cons_iff.mp rest
  obtain ⟨rfl, rfl⟩ := Record.mk.inj here
  exact ⟨first, last, entry.lastUse, rfl, listed, listedLast⟩

/-- The register without an entry lists the records without its record. -/
theorem remove (lists : Lists entries place (front ++ ⟨old, key⟩ :: back))
    (others : ∀ record ∈ front ++ back, record.stamp ≠ old) :
    Lists (entries.filter fun entry => entry.stamp ≠ old) place (front ++ back) := by
  obtain ⟨ordered, same, growing, before, split⟩ := lists
  obtain ⟨first, last, lastUse, rfl, rfl, rfl⟩ := exists_entry split
  have fewer : (first ++ last).Sublist (first ++ ⟨key, old, lastUse⟩ :: last) :=
    (List.Sublist.refl first).append (List.sublist_cons_self _ _)
  have kept : (first ++ ⟨key, old, lastUse⟩ :: last).filter (fun entry => entry.stamp ≠ old) =
      first ++ last := by
    rw [List.filter_append, List.filter_cons_of_neg (by simp), ← List.filter_append]
    refine List.filter_eq_self.mpr fun entry member => decide_eq_true ?_
    rw [← List.map_append] at others
    exact others entry.record (List.mem_map_of_mem member)
  refine ⟨first ++ last, kept ▸ same.filter _, growing.sublist fewer,
    fun entry member => before entry (fewer.subset member), List.map_append⟩

/-- An entry with a new last use is listed behind the others. -/
theorem touch (lists : Lists entries place (front ++ ⟨old, key⟩ :: back))
    (others : ∀ record ∈ front ++ back, record.stamp ≠ old) (stamp : Nat) :
    Lists (entries.map (Entry.touched old stamp place)) (place + 1)
      (front ++ back ++ [⟨stamp, key⟩]) := by
  obtain ⟨ordered, same, growing, before, split⟩ := lists
  obtain ⟨first, last, lastUse, rfl, rfl, rfl⟩ := exists_entry split
  rw [← List.map_append] at others
  have fewer : (first ++ last).Sublist (first ++ ⟨key, old, lastUse⟩ :: last) :=
    (List.Sublist.refl first).append (List.sublist_cons_self _ _)
  have kept : Lists (first ++ last) place ((first ++ last).map Entry.record) :=
    ⟨first ++ last, .refl _, growing.sublist fewer,
      fun entry member => before entry (fewer.subset member), rfl⟩
  obtain ⟨ordered, permuted, rest⟩ := kept.insert stamp key
  rw [List.map_append] at rest
  have still : ∀ entry ∈ first ++ last, Entry.touched old stamp place entry = entry :=
    fun entry member => if_neg (others entry.record (List.mem_map_of_mem member))
  have moved : (first ++ ⟨key, old, lastUse⟩ :: last).map (Entry.touched old stamp place) =
      first ++ ⟨key, stamp, place⟩ :: last := by
    rw [List.map_append, List.map_cons,
      List.map_congr_left fun entry member => still entry (List.mem_append_left _ member),
      List.map_congr_left fun entry member => still entry (List.mem_append_right _ member),
      List.map_id', List.map_id', Entry.touched, if_pos rfl]
  have aside : (first ++ last ++ [(⟨key, stamp, place⟩ : Entry)]).Perm
      (first ++ ⟨key, stamp, place⟩ :: last) :=
    (List.perm_append_singleton _ _).trans List.perm_middle.symm
  exact ⟨ordered, (permuted.trans aside).trans (moved ▸ same.map _), rest⟩

/-- A register is sorted by the last uses. -/
theorem pairwise_mergeSort_lastUse (entries : List Entry) :
    (entries.mergeSort fun first second => first.lastUse ≤ second.lastUse).Pairwise
      fun first second => first.lastUse ≤ second.lastUse := by
  have trans : ∀ first second third : Entry, decide (first.lastUse ≤ second.lastUse) = true →
      decide (second.lastUse ≤ third.lastUse) = true →
        decide (first.lastUse ≤ third.lastUse) = true := by
    intro first second third before after
    exact decide_eq_true (Nat.le_trans (of_decide_eq_true before) (of_decide_eq_true after))
  have total : ∀ first second : Entry, (decide (first.lastUse ≤ second.lastUse) ||
      decide (second.lastUse ≤ first.lastUse)) = true := by
    intro first second
    rw [Bool.or_eq_true, decide_eq_true_eq, decide_eq_true_eq]
    exact Nat.le_total _ _
  exact (List.pairwise_mergeSort trans total entries).imp of_decide_eq_true

/-- Sorting the register by the last uses gives the entries as they are listed. -/
theorem mergeSort_map (lists : Lists entries place records) :
    (entries.mergeSort fun first second => first.lastUse ≤ second.lastUse).map Entry.record =
      records := by
  obtain ⟨ordered, same, growing, -, rfl⟩ := lists
  have sorted := pairwise_mergeSort_lastUse entries
  have permuted := (List.mergeSort_perm entries fun first second =>
    decide (first.lastUse ≤ second.lastUse)).trans same.symm
  congr 1
  refine permuted.eq_of_pairwise (fun first second firstIn secondIn le ge => ?_) sorted
    (growing.imp Nat.le_of_lt)
  -- Two entries that were used last at the same place are one.
  by_contra different
  have either : ordered.Pairwise fun first second => first.lastUse ≠ second.lastUse :=
    growing.imp Nat.ne_of_lt
  have : Std.Symm fun first second : Entry => first.lastUse ≠ second.lastUse :=
    ⟨fun _ _ => Ne.symm⟩
  exact either.forall (permuted.subset firstIn) secondIn different (Nat.le_antisymm le ge)

end Lists

/-! ## What an action keeps -/

/-- An index agrees with the history of what was done to it. -/
structure Booked (events : List Event) (recency : Recency) : Prop where
  stamped : recency.Stamped
  issued : events.filterMap Event.issued? = List.range' 1 recency.clock
  stored : ∀ stamp ∈ recency.stamps, stamp ∈ events.filterMap Event.issued?
  lists : Lists (register events) events.length recency.records
  conserved : (recency.keys ++ events.filterMap Event.removed?).Perm
    (events.filterMap Event.inserted?)

namespace Booked

theorem empty : Booked [] Recency.empty where
  stamped := stamped_empty
  issued := rfl
  stored stamp none := by cases none
  lists := ⟨[], .refl _, .nil, by simp, rfl⟩
  conserved := .refl _

/-- The next stamp is the next number. -/
theorem issued_concat (booked : Booked events recency) {event : Event}
    (issues : event.issued? = some (recency.clock + 1)) :
    (events ++ [event]).filterMap Event.issued? = List.range' 1 (recency.clock + 1) := by
  rw [List.filterMap_append, booked.issued, List.range'_concat, Nat.one_mul, Nat.add_comm 1]
  simp [issues]

theorem stored_concat (booked : Booked events recency) (event : Event)
    (stored : stamp ∈ recency.stamps) :
    stamp ∈ (events ++ [event]).filterMap Event.issued? := by
  rw [List.filterMap_append]
  exact List.mem_append_left _ (booked.stored stamp stored)

theorem stored_issued (booked : Booked events recency) {event : Event} {records : List Record}
    (issues : event.issued? = some (recency.clock + 1))
    (older : ∀ record ∈ records, record ∈ recency.records) (key : Key) :
    ∀ stamp ∈ stamps ⟨recency.clock + 1, records ++ [⟨recency.clock + 1, key⟩]⟩,
      stamp ∈ (events ++ [event]).filterMap Event.issued? := by
  intro stamp stored
  obtain ⟨record, member, rfl⟩ := List.mem_map.mp stored
  rcases List.mem_append.mp member with inside | newest
  · exact booked.stored_concat _ (List.mem_map_of_mem (older record inside))
  · obtain rfl := List.mem_singleton.mp newest
    rw [List.filterMap_append]
    simp [issues]

theorem lists_concat {event : Event} {records : List Record}
    (lists : Lists (book (register events) events.length event) (events.length + 1) records) :
    Lists (register (events ++ [event])) (events ++ [event]).length records := by
  rwa [register_concat, List.length_append]

/-- The keys are balanced after an event if the event balances what it changes. -/
theorem conserved_concat (booked : Booked events recency) {event : Event} {keys : List Key}
    (balance : (keys ++ event.removed?.toList).Perm (recency.keys ++ event.inserted?.toList)) :
    (keys ++ (events ++ [event]).filterMap Event.removed?).Perm
      ((events ++ [event]).filterMap Event.inserted?) := by
  have removed : (events ++ [event]).filterMap Event.removed? =
      events.filterMap Event.removed? ++ event.removed?.toList := by
    rw [List.filterMap_append]
    cases taken : event.removed? <;> simp [taken]
  have inserted : (events ++ [event]).filterMap Event.inserted? =
      events.filterMap Event.inserted? ++ event.inserted?.toList := by
    rw [List.filterMap_append]
    cases new : event.inserted? <;> simp [new]
  rw [removed, inserted]
  calc List.Perm (keys ++ (events.filterMap Event.removed? ++ event.removed?.toList))
        (keys ++ event.removed?.toList ++ events.filterMap Event.removed?) := by
        rw [List.append_assoc]
        exact List.perm_append_comm.append_left _
    List.Perm _ (recency.keys ++ event.inserted?.toList ++ events.filterMap Event.removed?) :=
        balance.append_right _
    List.Perm _ (recency.keys ++ events.filterMap Event.removed? ++ event.inserted?.toList) := by
        rw [List.append_assoc, List.append_assoc]
        exact List.perm_append_comm.append_left _
    List.Perm _ (events.filterMap Event.inserted? ++ event.inserted?.toList) :=
        booked.conserved.append_right _

/-- An action without a record under its stamp changes nothing. -/
theorem absent (booked : Booked events recency) {event : Event}
    (nothing : event.issued? = none ∧ event.removed? = none ∧ event.inserted? = none)
    (unbooked : ∀ entries place, book entries place event = entries) :
    Booked (events ++ [event]) recency where
  stamped := booked.stamped
  issued := by simp [booked.issued, nothing]
  stored _ stored := booked.stored_concat event stored
  lists := lists_concat (unbooked _ _ ▸ booked.lists.later)
  conserved := booked.conserved_concat (by rw [nothing.2.1, nothing.2.2])

theorem tick (booked : Booked events recency) :
    Booked (events ++ [⟨.tick, .issued (recency.clock + 1)⟩]) recency.tick.2 where
  stamped := booked.stamped.fewer (.refl _) (Nat.le_succ _)
  issued := booked.issued_concat rfl
  stored _ stored := booked.stored_concat _ stored
  lists := lists_concat booked.lists.later
  conserved := booked.conserved_concat (.refl _)

theorem insert (booked : Booked events recency) (key : Key) :
    Booked (events ++ [⟨.insert key, .issued (recency.clock + 1)⟩]) (recency.insert key).2 where
  stamped := booked.stamped.concat (.refl _) key
  issued := booked.issued_concat rfl
  stored := booked.stored_issued rfl (fun record member => member) key
  lists := lists_concat (booked.lists.insert _ key)
  conserved := by
    refine booked.conserved_concat ?_
    rw [keys, Recency.insert, List.map_append]
    exact .of_eq (List.append_nil _)

/-- Touching a stored stamp puts its key behind the others, under the next stamp. -/
theorem touch (booked : Booked events recency) (found : recency.find? stamp = some key) :
    Booked (events ++ [⟨.touch stamp, .issued (recency.clock + 1)⟩]) (recency.touch stamp).2 := by
  obtain ⟨front, back, split, rest, others⟩ := booked.stamped.exists_split found
  have lists := split ▸ booked.lists
  rw [touch_of_found found]
  refine ⟨booked.stamped.concat List.filter_sublist key, booked.issued_concat rfl,
    booked.stored_issued rfl (fun record member => List.mem_of_mem_filter member) key,
    lists_concat (rest ▸ lists.touch others _), booked.conserved_concat ?_⟩
  rw [keys, keys, rest, split, List.map_append, List.map_append, List.map_append]
  show ((front.map Record.key ++ back.map Record.key ++ [key]) ++ []).Perm
    ((front.map Record.key ++ key :: back.map Record.key) ++ [])
  rw [List.append_nil, List.append_nil]
  exact (List.perm_append_singleton _ _).trans List.perm_middle.symm

/-- Removing a stored stamp takes its key out. -/
theorem remove (booked : Booked events recency) (found : recency.find? stamp = some key) :
    Booked (events ++ [⟨.remove stamp, .removed key⟩]) (recency.remove stamp).2 := by
  obtain ⟨front, back, split, rest, others⟩ := booked.stamped.exists_split found
  have lists := split ▸ booked.lists
  rw [remove_of_found found]
  refine ⟨booked.stamped.fewer List.filter_sublist (Nat.le_refl _), ?_, ?_,
    lists_concat (rest ▸ (lists.remove others).later), booked.conserved_concat ?_⟩
  · simp [booked.issued, Event.issued?]
  · intro other stored
    exact booked.stored_concat _ ((List.filter_sublist.map _).subset stored)
  · rw [keys, keys, rest, split, List.map_append, List.map_append]
    show ((front.map Record.key ++ back.map Record.key) ++ [key]).Perm
      ((front.map Record.key ++ key :: back.map Record.key) ++ [])
    rw [List.append_nil]
    exact (List.perm_append_singleton _ _).trans List.perm_middle.symm

/-- **Every action keeps the agreement.** -/
theorem act (booked : Booked events recency) (action : Action) :
    Booked (events ++ [⟨action, (recency.act action).1⟩]) (recency.act action).2 := by
  cases action with
  | tick => exact booked.tick
  | insert key => exact booked.insert key
  | touch stamp =>
      cases found : recency.find? stamp with
      | none =>
          rw [Recency.act, touch_of_absent (find?_eq_none_iff.mp found)]
          exact booked.absent ⟨rfl, rfl, rfl⟩ fun entries place => rfl
      | some key =>
          have touched := booked.touch found
          rw [touch_of_found found] at touched
          rw [Recency.act, touch_of_found found]
          exact touched
  | remove stamp =>
      cases found : recency.find? stamp with
      | none =>
          rw [Recency.act, remove_of_absent (find?_eq_none_iff.mp found)]
          exact booked.absent ⟨rfl, rfl, rfl⟩ fun entries place => rfl
      | some key =>
          have removed := booked.remove found
          rw [remove_of_found found] at removed
          rw [Recency.act, remove_of_found found]
          exact removed

theorem run (booked : Booked events recency) (actions : List Action) :
    Booked (events ++ recency.history actions) (recency.run actions) := by
  induction actions generalizing events recency with
  | nil => rwa [history, List.append_nil]
  | cons action rest ih =>
      have later := ih (booked.act action)
      rwa [List.append_assoc] at later

end Booked

/-! ## Stamps that are no longer valid -/

/-- A stamp that was issued and under which nothing is stored. -/
structure Spent (stamp : Nat) (recency : Recency) : Prop where
  issued : stamp ≤ recency.clock
  absent : stamp ∉ recency.stamps

namespace Spent

/-- Records that were there before and one under the next stamp leave a spent stamp spent. -/
theorem concat (spent : Spent stamp recency) {records : List Record}
    (older : ∀ record ∈ records, record ∈ recency.records) (key : Key) :
    Spent stamp ⟨recency.clock + 1, records ++ [⟨recency.clock + 1, key⟩]⟩ where
  issued := Nat.le_succ_of_le spent.issued
  absent stored := by
    obtain ⟨record, member, rfl⟩ := List.mem_map.mp stored
    rcases List.mem_append.mp member with inside | newest
    · exact spent.absent (List.mem_map_of_mem (older record inside))
    · obtain rfl := List.mem_singleton.mp newest
      exact absurd spent.issued (Nat.not_succ_le_self _)

theorem act (spent : Spent stamp recency) (action : Action) :
    Spent stamp (recency.act action).2 := by
  cases action with
  | tick => exact ⟨Nat.le_succ_of_le spent.issued, spent.absent⟩
  | insert key => exact spent.concat (fun record member => member) key
  | touch other =>
      rw [Recency.act, Recency.touch]
      split
      · exact spent
      · exact spent.concat (fun record member => List.mem_of_mem_filter member) _
  | remove other =>
      rw [Recency.act, Recency.remove_eq]
      exact ⟨spent.issued, fun stored => spent.absent ((List.filter_sublist.map _).subset stored)⟩

theorem run (spent : Spent stamp recency) (actions : List Action) :
    Spent stamp (recency.run actions) := by
  induction actions generalizing recency with
  | nil => exact spent
  | cons action rest ih => exact ih (spent.act action)

end Spent

theorem not_mem_without (recency : Recency) (stamp : Nat) :
    ∀ record ∈ recency.without stamp, record.stamp ≠ stamp := fun _ member =>
  of_decide_eq_true (List.mem_filter.mp member).2

/-- A stamp that is touched is spent, whether it was stored or not. -/
theorem spent_touch (issued : stamp ≤ recency.clock) :
    Spent stamp (recency.act (.touch stamp)).2 := by
  cases found : recency.find? stamp with
  | none =>
      have absent := find?_eq_none_iff.mp found
      rw [act, touch_of_absent absent]
      exact ⟨issued, absent⟩
  | some key =>
      rw [act, touch_of_found found]
      refine ⟨Nat.le_succ_of_le issued, fun stored => ?_⟩
      obtain ⟨record, member, same⟩ := List.mem_map.mp stored
      rcases List.mem_append.mp member with inside | newest
      · exact recency.not_mem_without stamp record inside same
      · obtain rfl := List.mem_singleton.mp newest
        exact absurd issued (same ▸ Nat.not_succ_le_self _)

/-- A stamp that is removed is spent, whether it was stored or not. -/
theorem spent_remove (issued : stamp ≤ recency.clock) :
    Spent stamp (recency.act (.remove stamp)).2 := by
  rw [act, remove_eq]
  refine ⟨issued, fun stored => ?_⟩
  obtain ⟨record, member, same⟩ := List.mem_map.mp stored
  exact recency.not_mem_without stamp record member same

/-! ## Runs from a new index -/

/-- After some actions on a new index it is a list whose members were moved to the back. -/
structure MovesToBack (actions : List Action) : Prop where
  /-- The records are the entries that were inserted and not removed, in the order of their last
  insertion or successful touch. -/
  listed : (empty.run actions).records =
    ((register (empty.history actions)).mergeSort fun first second =>
      first.lastUse ≤ second.lastUse).map Entry.record
  /-- Every key is listed as often as it was inserted and not removed. -/
  conserved : ((empty.run actions).keys ++ (empty.history actions).filterMap Event.removed?).Perm
    ((empty.history actions).filterMap Event.inserted?)
  /-- Every stamp that is returned is larger than all stamps that were returned before. -/
  growing : ((empty.history actions).filterMap Event.issued?).Pairwise (· < ·)
  /-- The stored stamps are distinct, because they grow along the list. -/
  distinct : (empty.run actions).stamps.Pairwise (· < ·)
  /-- The stamps are words as long as fewer are issued than there are words. -/
  words : ((empty.history actions).filterMap Event.issued?).length < wordBound →
    ∀ stamp ∈ (empty.history actions).filterMap Event.issued?, stamp < wordBound
  /-- A stored stamp was issued. Touching it gives the next stamp and removing it gives the key that
  is stored under it. -/
  answered : ∀ stamp ∈ (empty.run actions).stamps,
    stamp ∈ (empty.history actions).filterMap Event.issued? ∧
      ((empty.run actions).touch stamp).1 =
        some (((empty.history actions).filterMap Event.issued?).length + 1) ∧
      ∃ key, ⟨stamp, key⟩ ∈ (empty.run actions).records ∧
        ((empty.run actions).remove stamp).1 = some key
  /-- Touching and removing any other stamp gives nothing and changes nothing. -/
  refused : ∀ stamp, stamp ∉ (empty.run actions).stamps →
    (empty.run actions).touch stamp = (none, empty.run actions) ∧
      (empty.run actions).remove stamp = (none, empty.run actions)
  /-- A stamp that was issued and then touched or removed never becomes valid again. -/
  spent : ∀ stamp ∈ (empty.history actions).filterMap Event.issued?,
    ∀ action, action = .touch stamp ∨ action = .remove stamp →
      ∀ more, stamp ∉ (empty.run (actions ++ action :: more)).stamps

/-- **A recency index is a list in which what is used moves to the back**, whatever is done to
it. -/
theorem movesToBack_of_run (actions : List Action) : MovesToBack actions := by
  have booked : Booked (empty.history actions) (empty.run actions) := Booked.empty.run actions
  have numbers : ∀ stamp ∈ (empty.history actions).filterMap Event.issued?,
      stamp ≤ (empty.run actions).clock := by
    rw [booked.issued]
    intro stamp issued
    have bounds := List.mem_range'_1.mp issued
    omega
  constructor
  case listed => exact booked.lists.mergeSort_map.symm
  case conserved => exact booked.conserved
  case growing => exact booked.issued ▸ List.pairwise_lt_range'
  case distinct => exact List.pairwise_map.mpr booked.stamped.growing
  case words =>
    intro few stamp issued
    rw [booked.issued, List.length_range'] at few
    exact Nat.lt_of_le_of_lt (numbers stamp issued) few
  case answered =>
    intro stamp stored
    refine ⟨booked.stored stamp stored, ?_⟩
    cases found : (empty.run actions).find? stamp with
    | none => exact absurd stored (find?_eq_none_iff.mp found)
    | some key =>
        rw [touch_of_found found, remove_of_found found, booked.issued, List.length_range']
        exact ⟨rfl, key, mem_records_of_find? found, rfl⟩
  case refused => exact fun stamp absent => ⟨touch_of_absent absent, remove_of_absent absent⟩
  case spent =>
    rintro stamp issued action (rfl | rfl) more
    · rw [run_append]
      exact ((spent_touch (numbers stamp issued)).run more).absent
    · rw [run_append]
      exact ((spent_remove (numbers stamp issued)).run more).absent

/-- A key that is inserted twice, a stamp without a record, a touch, a removal, and a touch of the
stamp that was removed. -/
def twiceInserted : List Action :=
  let first : Key := .ofString "a"
  let second : Key := .ofString "b"
  [.insert first, .insert second, .tick, .insert first, .touch 1, .remove 2, .touch 2]

/-- The key is listed twice, the touched entry behind the other one, and a stamp that was touched
stays without a record when more stamps are issued. -/
theorem movesToBack_of_run_twice :
    (empty.run twiceInserted).records = [⟨4, .ofString "a"⟩, ⟨5, .ofString "a"⟩] ∧
    (empty.history twiceInserted).filterMap Event.issued? = [1, 2, 3, 4, 5] ∧
    (empty.run twiceInserted).touch 2 = (none, empty.run twiceInserted) ∧
    4 ∉ (empty.run (twiceInserted ++ [.touch 4, .insert (.ofString "b"), .tick])).stamps := by
  have moves := movesToBack_of_run twiceInserted
  exact ⟨by decide, by decide, (moves.refused 2 (by decide)).1,
    moves.spent 4 (by decide) (.touch 4) (.inl rfl) _⟩

end Recency

end LeaseCache
