import LeaseCache.Key

/-!
# The order of last use

A recency index records keys under stamps taken from a clock. Inserting or
touching a record gives it the newest stamp and puts it at the end, so the
records stand in the order of their last use.
-/

set_option autoImplicit false

namespace LeaseCache

/-- A key and the stamp of its last use. -/
structure Recency.Record where
  stamp : Nat
  key : Key
  deriving DecidableEq

/-- A clock and the records, oldest first. -/
structure Recency where
  clock : Nat
  records : List Recency.Record
  deriving DecidableEq

namespace Recency

/-- Nothing is recorded and no stamp has been issued. -/
def empty : Recency := ⟨0, []⟩

/-- Issues the next stamp without recording anything. -/
def tick (recency : Recency) : Nat × Recency :=
  (recency.clock + 1, { recency with clock := recency.clock + 1 })

/-- The key recorded under a stamp. -/
def find? (recency : Recency) (stamp : Nat) : Option Key :=
  (recency.records.find? fun record => record.stamp = stamp).map Record.key

/-- The records under other stamps. -/
def without (recency : Recency) (stamp : Nat) : List Record :=
  recency.records.filter fun record => record.stamp ≠ stamp

/-- Records a key under the next stamp. -/
def insert (recency : Recency) (key : Key) : Nat × Recency :=
  (recency.clock + 1, ⟨recency.clock + 1, recency.records ++ [⟨recency.clock + 1, key⟩]⟩)

/-- Moves the record under a stamp to the end, under the next stamp. -/
def touch (recency : Recency) (stamp : Nat) : Option Nat × Recency :=
  match recency.find? stamp with
  | none => (none, recency)
  | some key =>
      (some (recency.clock + 1),
        ⟨recency.clock + 1, recency.without stamp ++ [⟨recency.clock + 1, key⟩]⟩)

/-- Removes the record under a stamp. -/
def remove (recency : Recency) (stamp : Nat) : Option Key × Recency :=
  match recency.find? stamp with
  | none => (none, recency)
  | some key => (some key, { recency with records := recency.without stamp })

/-- The number of records. -/
def size (recency : Recency) : Nat := recency.records.length

/-- Whether nothing is recorded. -/
def isEmpty (recency : Recency) : Bool := recency.records.isEmpty

/-- The recorded keys, least recently used first. -/
def keys (recency : Recency) : List Key := recency.records.map Record.key

end Recency

end LeaseCache
