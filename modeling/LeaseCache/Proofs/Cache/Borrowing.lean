import LeaseCache.Proofs.Cache.Releasing

/-!
# Borrowing a live version

A `get` counts a lease on a version and stamps its use. A `release` that comes
right after it takes the lease off again. Neither moves a version or touches a
byte, so what is stored stays the same to every reader (`Borrows`,
`Borrows.inventory`).

Giving back a lease that a `get` has just taken succeeds in every state of the
cache (`release_of_get`). No account of the leases is needed for that, because
the record of the lease and the count of its version are those that the `get`
has written.
-/

set_option autoImplicit false

namespace LeaseCache

/-- A version without what its uses change. -/
def Version.unused (version : Version) : Version := { version with leases := 0, lastUse := 0 }

/-- What a stored version is to its readers. -/
structure Item where
  id : Nat
  key : Key
  phase : Phase
  bytes : ByteArray
  deriving DecidableEq

namespace Table

variable {κ : Type} [DecidableEq κ] {table : Table κ Version} {key : κ}

/-- What an entry says about its version, apart from the uses of the version. -/
def unused (table : Table κ Version) : List (κ × Version) :=
  table.entries.map (Prod.map id Version.unused)

/-- A change of leases and stamps is none to the readers. -/
theorem unused_modify {change : Version → Version}
    (same : ∀ version : Version, (change version).unused = version.unused) :
    (table.modify key change).unused = table.unused := by
  suffices entries : ∀ entries : List (κ × Version),
      (alter key change entries).map (Prod.map id Version.unused) =
        entries.map (Prod.map id Version.unused) from entries table.entries
  intro entries
  induction entries with
  | nil => rfl
  | cons entry rest ih =>
      rw [alter]
      split
      · rw [List.map_cons, List.map_cons, Prod.map, Prod.map, same]
      · rw [List.map_cons, List.map_cons, ih]

/-- What is inserted under a new key is all that its removal takes away. -/
theorem erase_insert {κ α : Type} [DecidableEq κ] {table : Table κ α} {key : κ}
    (absent : table.find? key = none) (value : α) :
    (table.insert key value).erase key = table := by
  have nothing : lookup key table.entries = none := absent
  have others := filter_ne_of_notMem ((lookup_eq_none_iff key table.entries).mp nothing)
  have front : (table.insert key value).entries = (key, value) :: table.entries := by
    rw [insert, dif_pos nothing]
  obtain ⟨entries, nodup⟩ := table
  rw [erase, mk.injEq, front, List.filter_cons_of_neg (by simp), others]

end Table

namespace Cache

variable {cache leased before after : Cache} {key : Key} {handle : Handle}

/-- The stored versions and their bytes, the live ones first. -/
def inventory (cache : Cache) : List Item :=
  cache.stored.map fun version =>
    ⟨version.id, version.key, version.phase, cache.bytes version.region⟩

/-- Two states of a cache differ at most in the uses of live versions and in the records of them. -/
structure Borrows (before after : Cache) : Prop where
  arena : after.arena = before.arena
  live : after.live.unused = before.live.unused
  draining : after.draining = before.draining

namespace Borrows

/-- **Borrowing leaves every stored version and its bytes as they were.** -/
theorem inventory (borrows : Borrows before after) : after.inventory = before.inventory := by
  have seen : ∀ cache : Cache, cache.inventory =
      (cache.live.unused.map fun entry => (⟨entry.2.id, entry.2.key, entry.2.phase,
        cache.bytes entry.2.region⟩ : Item)) ++
      cache.draining.values.map fun version =>
        ⟨version.id, version.key, version.phase, cache.bytes version.region⟩ := by
    intro cache
    rw [Cache.inventory, stored, List.map_append, Table.unused, Table.values, List.map_map,
      List.map_map]
    rfl
  have bytes : after.bytes = before.bytes := by
    funext region
    rw [Cache.bytes, Cache.bytes, borrows.arena]
  rw [seen after, seen before, borrows.live, borrows.draining, bytes]

end Borrows

theorem borrows_get (cache : Cache) (key : Key) : Borrows cache (cache.get key).1 := by
  cases found : cache.live.find? key with
  | none =>
      rw [get_of_absent found]
      exact ⟨rfl, rfl, rfl⟩
  | some version =>
      obtain ⟨stamp, recency, same⟩ := get_eq found
      rw [same]
      exact ⟨rfl, Table.unused_modify fun _ => rfl, rfl⟩

/-- **A lease that has just been taken can be given back**, and that leaves what is stored as it
was before. -/
theorem release_of_get (got : cache.get key = (leased, .ok handle)) :
    (leased.release handle.key handle.lease).2 = .ok () ∧
      Borrows cache (leased.release handle.key handle.lease).1 := by
  cases found : cache.live.find? key with
  | none =>
      rw [get_of_absent found] at got
      cases got
  | some version =>
      obtain ⟨stamp, recency, same⟩ := get_eq found
      obtain ⟨rfl, result⟩ := Prod.mk.inj (same.symm.trans got)
      obtain rfl := Except.ok.inj result
      have recorded : (cache.leases.insert (cache.lastLease + 1) ⟨key, version.id⟩).find?
          (cache.lastLease + 1) = some ⟨key, version.id⟩ :=
        Table.find?_insert_self _ _ _
      have counted : ((cache.live.modify key (Version.leased stamp)).find? key).filter
          (fun other => other.id = version.id) = some (version.leased stamp) := by
        rw [Table.find?_modify, if_pos rfl, found, Option.map_some, Option.filter_some]
        exact if_pos (decide_eq_true rfl)
      have taken : (version.leased stamp).leases ≠ 0 := Nat.succ_ne_zero version.leases
      rw [release]
      dsimp only
      rw [recorded]
      dsimp only
      rw [if_neg (not_not_intro rfl), counted]
      dsimp only
      rw [if_neg taken]
      have used : (cache.live.modify key (Version.leased stamp)).unused = cache.live.unused :=
        Table.unused_modify fun _ => rfl
      have returned : ((cache.live.modify key (Version.leased stamp)).modify key
          Version.released).unused = (cache.live.modify key (Version.leased stamp)).unused :=
        Table.unused_modify fun _ => rfl
      exact ⟨rfl, rfl, returned.trans used, rfl⟩

end Cache

end LeaseCache
