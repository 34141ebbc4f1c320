import LeaseCache.Proofs.Cache.Run
import Mathlib.Algebra.Order.BigOperators.Group.List
import Mathlib.Algebra.Order.Group.Nat
import Mathlib.Data.Set.Function

/-!
# What is true in every reachable state

Two statements about all states that a cache can reach. Its tables of versions,
leases and pending deletions agree (`leases_agree`), and the reservations of its
arena are the regions of its versions (`storage_agrees`). Neither needs a bound
on the number of leases, because no count exceeds the size of the lease table.
-/

set_option autoImplicit false

namespace LeaseCache

namespace Cache

/-- The tables of versions, leases and pending deletions agree. -/
structure LeasesAgree (cache : Cache) : Prop where
  /-- A lease is on a version that is live or drains, and it has the key of that version. -/
  named : ∀ lease record, cache.leases.find? lease = some record →
    (∃ version, cache.live.find? record.key = some version ∧ version.id = record.version ∧
      version.key = record.key) ∨
    ∃ version, cache.draining.find? record.version = some version ∧
      version.id = record.version ∧ version.key = record.key
  /-- A version counts its leases. -/
  counted : ∀ version ∈ cache.stored, version.leases =
    cache.leases.values.countP fun record => record.version = version.id
  /-- No count exceeds the number of outstanding leases. -/
  bounded : ∀ version ∈ cache.stored, version.leases ≤ cache.leases.size
  live : ∀ key version, cache.live.find? key = some version →
    version.key = key ∧ version.phase = .active
  draining : ∀ id version, cache.draining.find? id = some version →
    version.id = id ∧ 1 ≤ version.leases ∧
      (version.phase = .pendingDelete ∨ version.phase = .superseded)
  /-- No two stored versions have one number. -/
  distinct : (cache.stored.map Version.id).Nodup
  /-- A key waits exactly for the version that drains because the key was deleted. -/
  pending : ∀ key id, cache.pendingDeletes.find? key = some id ↔
    ∃ version, cache.draining.find? id = some version ∧ version.key = key ∧
      version.phase = .pendingDelete
  /-- At most one deletion of a key is pending. -/
  unique : ∀ first second firstVersion secondVersion,
    cache.draining.find? first = some firstVersion → firstVersion.phase = .pendingDelete →
    cache.draining.find? second = some secondVersion → secondVersion.phase = .pendingDelete →
    firstVersion.key = secondVersion.key → first = second
  apart : ∀ key, ¬ (cache.live.contains key = true ∧ cache.pendingDeletes.contains key = true)

/-- The reservations of the arena are the regions of the stored versions. -/
structure StorageAgrees (cache : Cache) : Prop where
  capacity : cache.arena.capacity = cache.config.arena.capacity
  /-- Every version has a reservation that starts where its region does and has the length of
  the region rounded up, and every reservation is that of exactly one version. -/
  matched : Set.BijOn
    (fun version => ⟨version.region.offset,
      roundUp version.region.length cache.config.arena.alignment⟩)
    {version | version ∈ cache.stored} {range | range ∈ cache.arena.allocator.reserved}
  /-- No version and no reservation occurs twice in the lists. -/
  distinct : cache.stored.Nodup ∧ cache.arena.allocator.reserved.Nodup
  /-- Rounding gives the least multiple of the alignment that is long enough. -/
  rounded : ∀ version ∈ cache.stored, IsLeast
    {multiple | cache.config.arena.alignment ∣ multiple ∧ version.region.length ≤ multiple}
    (roundUp version.region.length cache.config.arena.alignment)
  disjoint : cache.stored.Pairwise fun first second => first.region.Disjoint second.region
  used : cache.arena.allocator.used =
    (cache.stored.map fun version => roundUp version.size cache.config.arena.alignment).sum
  storedBytes_le : cache.stats.storedBytes ≤ cache.arena.allocator.used
  used_le : cache.arena.allocator.used ≤ cache.config.arena.capacity

variable {cache : Cache}

theorem Accounted.unique (accounted : Accounted [] cache) {first second : Nat}
    {firstVersion secondVersion : Version} (here : cache.draining.find? first = some firstVersion)
    (deleted : firstVersion.phase = .pendingDelete)
    (there : cache.draining.find? second = some secondVersion)
    (also : secondVersion.phase = .pendingDelete) (same : firstVersion.key = secondVersion.key) :
    first = second := by
  have waits := (accounted.pending secondVersion.key first).mpr ⟨firstVersion, here, same, deleted⟩
  have alsoWaits := (accounted.pending _ second).mpr ⟨secondVersion, there, rfl, also⟩
  exact Option.some.inj (waits.symm.trans alsoWaits)

/-- **In every reachable state the lease account is right.** -/
theorem leases_agree (reachable : Reachable cache) : LeasesAgree cache where
  named lease record held := by
    have accounted := reachable.sound.accounted
    obtain ⟨version, inside, id, key⟩ :=
      accounted.tally.named record (Table.mem_values_of_find? held)
    rcases accounted.found_of_mem inside with live | draining
    · exact Or.inl ⟨version, key ▸ live, id, key⟩
    · exact Or.inr ⟨version, id ▸ draining, id, key⟩
  counted := reachable.sound.accounted.tally.counted
  bounded version member := by
    rw [reachable.sound.accounted.tally.counted version member, Table.size, ← List.length_map]
    exact leasesOn_le_length _ _
  live key version found := reachable.sound.accounted.live found
  draining id version found := by
    obtain ⟨same, inactive, leased⟩ := reachable.sound.accounted.draining found
    refine ⟨same, leased, ?_⟩
    cases phase : version.phase with
    | active => exact absurd phase inactive
    | pendingDelete => exact Or.inl rfl
    | superseded => exact Or.inr rfl
  distinct := reachable.sound.accounted.tally.nodup
  pending := reachable.sound.accounted.pending
  unique _ _ _ _ here deleted there also same :=
    reachable.sound.accounted.unique here deleted there also same
  apart key both := by
    obtain ⟨version, found⟩ := (Table.contains_iff _ _).mp both.1
    obtain ⟨id, waits⟩ := (Table.contains_iff _ _).mp both.2
    rw [reachable.sound.accounted.apart found] at waits
    cases waits

/-- The account is right while a key has two draining versions. -/
theorem leases_agree_busy : (small.run busy).draining.size = 2 ∧
    (small.run busy).pendingDeletes.size = 1 ∧ LeasesAgree (small.run busy) :=
  ⟨by decide, by decide, leases_agree reachable_busy⟩

theorem Housed.reserved_perm (housed : Housed [] cache) :
    cache.arena.allocator.reserved.Perm (cache.stored.map fun version =>
      version.region.padded cache.config.arena.alignment) := by
  have reserved := housed.holds.reserved
  rw [housed.alignment, List.nil_append, regions, List.map_map] at reserved
  exact reserved

/-- Reservations and versions match one to one. -/
theorem Housed.matched (housed : Housed [] cache) : Set.BijOn
    (fun version => version.region.padded cache.config.arena.alignment)
    {version | version ∈ cache.stored} {range | range ∈ cache.arena.allocator.reserved} := by
  have same := housed.reserved_perm
  have nodup := same.nodup housed.holds.tiled.reserved_nodup
  refine ⟨?_, ?_, ?_⟩
  · intro version member
    exact same.mem_iff.mpr (List.mem_map_of_mem member)
  · intro first firstIn second secondIn equal
    exact List.inj_on_of_nodup_map nodup firstIn secondIn equal
  · intro range member
    exact List.mem_map.mp (same.mem_iff.mp member)

/-- **In every reachable state the storage account is right.** Nothing leaks and nothing is
shared. -/
theorem storage_agrees (reachable : Reachable cache) : StorageAgrees cache := by
  obtain ⟨accounted, housed⟩ := reachable.sound
  have positive : 0 < cache.config.arena.alignment :=
    housed.alignment ▸ housed.holds.tiled.power.pos
  have used : cache.arena.allocator.used =
      (cache.stored.map fun version => roundUp version.size cache.config.arena.alignment).sum := by
    rw [housed.holds.used_eq, housed.alignment, List.nil_append, regions, List.map_map]
    rfl
  exact {
    capacity := housed.capacity
    matched := housed.matched
    distinct := ⟨accounted.tally.nodup.of_map, housed.holds.tiled.reserved_nodup⟩
    rounded := fun version _ => isLeast_roundUp positive version.region.length
    disjoint := List.pairwise_map.mp housed.holds.disjoint
    used := used
    storedBytes_le := by
      rw [used]
      exact List.sum_le_sum fun version _ => le_roundUp positive version.size
    used_le := housed.capacity ▸ housed.holds.used_le }

/-- Nine bytes in three versions take sixteen bytes of the arena. -/
theorem storage_agrees_busy : (small.run busy).stats.storedBytes = 9 ∧
    (small.run busy).arena.allocator.used = 16 ∧ StorageAgrees (small.run busy) :=
  ⟨by decide, by decide, storage_agrees reachable_busy⟩

end Cache

end LeaseCache
