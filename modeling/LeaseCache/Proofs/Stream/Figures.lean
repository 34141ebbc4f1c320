import LeaseCache.Proofs.Cache.Balance
import LeaseCache.Proofs.Stream.Sizes
import Mathlib.Algebra.Order.BigOperators.Group.List

/-!
# The figures of a cache are words

The statistics of a cache count what it holds. A live version was stored by a `put` of its
own, a lease was issued by a `get` of its own, and a version drains only under a lease. So
the lengths of all tables are at most the numbers of puts and hits, and the figures of the
arena are at most its capacity: nothing in the statistics leaves the words as long as the
capacity and the counters do not (`Booked.inWords`).
-/

set_option autoImplicit false

namespace LeaseCache

/-! ## The arena -/

namespace Allocator

variable {allocator : Allocator}

/-- No more ranges are free than positions. -/
theorem Tiled.length_free_le (tiled : allocator.Tiled) :
    allocator.free.length ≤ allocator.capacity := by
  have ordered : Ordered allocator.free := tiled.separated.imp fun before => Nat.le_of_lt before
  have total := sum_length_le ordered (Nat.zero_le _) (fun _ _ => Nat.zero_le _) tiled.free_inside
  have each : ∀ length ∈ allocator.free.map Region.length, 1 ≤ length := by
    intro length listed
    obtain ⟨range, member, rfl⟩ := List.mem_map.mp listed
    exact tiled.free_pos range member
  have count := List.length_le_sum_of_one_le _ each
  rw [List.length_map] at count
  omega

end Allocator

theorem ArenaStats.numbers_le {arena : Arena} (tiled : arena.allocator.Tiled) :
    ∀ number ∈ arena.stats.numbers, number ≤ arena.capacity := by
  simp only [numbers, Arena.stats, List.forall_mem_cons]
  exact ⟨Nat.le_refl _, tiled.used_le, Nat.sub_le _ _, tiled.largestFree_le, tiled.length_free_le,
    fun number none => by cases none⟩

namespace Cache

variable {cache : Cache} {history : List Event}

/-! ## The tables -/

/-- Every draining version is under a lease of its own. -/
theorem Accounted.size_draining_le (accounted : Accounted [] cache) :
    cache.draining.size ≤ cache.leases.size := by
  have named : cache.draining.entries.map Prod.fst ⊆ cache.leases.values.map Lease.version := by
    intro id listed
    obtain ⟨⟨id, version⟩, member, rfl⟩ := List.mem_map.mp listed
    have found : cache.draining.find? id = some version :=
      Table.lookup_of_mem cache.draining.nodup member
    obtain ⟨rfl, -, leased⟩ := accounted.draining found
    rw [accounted.tally.counted version (mem_stored_of_draining found)] at leased
    obtain ⟨lease, listed, same⟩ := List.countP_pos_iff.mp leased
    exact List.mem_map.mpr ⟨lease, listed, of_decide_eq_true same⟩
  have fewer := (cache.draining.nodup.subperm named).length_le
  rwa [← Table.size_eq_length_keys, List.length_map, Table.values, List.length_map] at fewer

/-- Every key that waits for the end of a deletion waits for a draining version of its own. -/
theorem Accounted.size_pendingDeletes_le (accounted : Accounted [] cache) :
    cache.pendingDeletes.size ≤ cache.draining.size := by
  have waits : ∀ entry ∈ cache.pendingDeletes.entries, ∃ version,
      cache.draining.find? entry.2 = some version ∧ version.key = entry.1 ∧
        version.phase = .pendingDelete := fun entry member =>
    (accounted.pending entry.1 entry.2).mp (Table.lookup_of_mem cache.pendingDeletes.nodup member)
  have distinct : (cache.pendingDeletes.entries.map Prod.snd).Nodup := by
    refine cache.pendingDeletes.nodup.of_map.map_on fun first firstIn second secondIn same => ?_
    obtain ⟨version, drains, owner, -⟩ := waits first firstIn
    obtain ⟨other, alsoDrains, alsoOwner, -⟩ := waits second secondIn
    rw [same] at drains
    obtain rfl := Option.some.inj (drains.symm.trans alsoDrains)
    exact Prod.ext (owner.symm.trans alsoOwner) same
  have draining : cache.pendingDeletes.entries.map Prod.snd ⊆
      cache.draining.entries.map Prod.fst := by
    intro id listed
    obtain ⟨entry, member, rfl⟩ := List.mem_map.mp listed
    obtain ⟨version, drains, -⟩ := waits entry member
    exact List.mem_map_of_mem (f := Prod.fst) (Table.mem_of_lookup drains)
  have fewer := (distinct.subperm draining).length_le
  rwa [List.length_map, ← Table.size_eq_length_keys] at fewer

/-- The stored bytes are reserved. -/
theorem Housed.storedBytes_le (housed : Housed [] cache) :
    cache.stats.storedBytes ≤ cache.arena.allocator.used := by
  rw [housed.holds.used_eq, List.nil_append, regions, List.map_map]
  exact List.sum_le_sum fun version _ => le_roundUp housed.holds.tiled.power.pos version.size

/-! ## The statistics -/

/-- The capacity of a cache is a word, and none of its counters has left the words. -/
structure Counted (cache : Cache) : Prop where
  capacity : cache.config.arena.capacity < wordBound
  puts : cache.counters.puts < wordBound
  hits : cache.counters.hits < wordBound
  misses : cache.counters.misses < wordBound
  leases : cache.lastLease < wordBound

/-- **All statistics of a cache are words** if its capacity and its counters are. -/
theorem Booked.inWords (booked : Booked history cache) (sound : Sound cache)
    (counted : cache.Counted) : cache.stats.InWords := by
  have room : cache.arena.capacity < wordBound := sound.housed.capacity ▸ counted.capacity
  have arena := ArenaStats.numbers_le sound.housed.holds.tiled
  have stored := Nat.le_trans sound.housed.storedBytes_le sound.housed.holds.used_le
  have draining := sound.accounted.size_draining_le
  have pending := sound.accounted.size_pendingDeletes_le
  obtain ⟨puts, hits, misses, versions, leases⟩ := booked
  obtain ⟨-, fewPuts, fewHits, fewMisses, -⟩ := counted
  have numbers : cache.stats.numbers = [cache.live.size, cache.stats.storedBytes,
      cache.arena.capacity, cache.pendingDeletes.size, cache.draining.size, cache.leases.size,
      cache.counters.hits, cache.counters.misses, cache.counters.puts,
      cache.counters.evictions] ++ cache.arena.stats.numbers := rfl
  intro number member
  rw [numbers] at member
  rcases List.mem_append.mp member with table | range
  · simp only [List.mem_cons, List.not_mem_nil, or_false] at table
    omega
  · exact Nat.lt_of_le_of_lt (arena number range) room

end Cache

end LeaseCache
