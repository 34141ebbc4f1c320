import LeaseCache.Proofs.Cache.Balance
import LeaseCache.Proofs.Dispatch.Operating
import LeaseCache.Proofs.Dispatch.Reachable

/-!
# Bounds on what a dispatcher holds

A key that is stored is no longer than a key may be, for a `put` of a longer one is refused.
So the keys of all versions, of all leases and of all gets that are being delivered are
short, and what a dispatcher tells about them is, too. And the tables and the counters of
its cache agree with some history, whoever made it.

Both hold in every state of a dispatcher (`Reachable.bounded`). It does to its cache what
operations do, and these keep the bounds (`Cache.Bounded.operates`).
-/

set_option autoImplicit false

namespace LeaseCache

namespace Cache

variable {cache after : Cache} {version : Version} {lease : Nat} {record : Lease}

/-- The keys of the versions are short, and the figures agree with a history. -/
structure Bounded (cache : Cache) : Prop where
  sound : cache.Sound
  keys : ∀ version ∈ cache.stored, version.key.length ≤ Key.maxLength
  booked : ∃ history, Booked history cache

namespace Bounded

theorem create {config : CacheConfig} (created : Cache.create config = .ok cache) :
    cache.Bounded where
  sound := .create created
  keys version member := by
    obtain ⟨-, rfl⟩ := eq_of_create created
    cases member
  booked := ⟨[], .create created⟩

/-- **No operation stores a key that is too long.** -/
theorem step (bounded : cache.Bounded) (operation : Operation) :
    (cache.step operation).Bounded := by
  obtain ⟨sound, keys, history, booked⟩ := bounded
  refine ⟨sound.step operation, fun version member => ?_, _, booked.step sound operation⟩
  by_cases older : version.id ≤ cache.lastVersion
  · obtain ⟨old, before, alike, -⟩ := (sound.follows_step operation).kept version member older
    exact alike.key ▸ keys old before
  · obtain ⟨payload, -, ⟨stored, -⟩, -⟩ :=
      sound.stores_of_newer member (Nat.lt_of_not_le older)
    exact (checkPut_eq_ok_iff.mp (checkPut_of_put_ok stored)).1

theorem operates (bounded : cache.Bounded) (operates : Operates cache after) : after.Bounded := by
  obtain ⟨operations, rfl⟩ := operates
  induction operations generalizing cache with
  | nil => exact bounded
  | cons operation rest ih => exact ih (bounded.step operation)

theorem overwrite (bounded : cache.Bounded) (memory : Memory) :
    (cache.overwrite memory).Bounded where
  sound := ⟨bounded.sound.accounted.congr rfl rfl rfl rfl rfl rfl,
    bounded.sound.housed.write memory⟩
  keys := bounded.keys
  booked := by
    obtain ⟨history, booked⟩ := bounded.booked
    exact ⟨history, booked.congr rfl rfl rfl⟩

/-- The key of a lease is the key of a version. -/
theorem key_of_held (bounded : cache.Bounded) (held : cache.leases.find? lease = some record) :
    record.key.length ≤ Key.maxLength := by
  obtain ⟨version, member, -, owner⟩ :=
    bounded.sound.accounted.tally.named record (Table.mem_values_of_find? held)
  exact owner ▸ bounded.keys version member

end Bounded

theorem Reachable.bounded (reachable : cache.Reachable) : cache.Bounded := by
  induction reachable with
  | created created => exact .create created
  | step operation _ ih => exact ih.step operation

theorem Operates.lastLease_le (operates : Operates cache after) (sound : cache.Sound) :
    cache.lastLease ≤ after.lastLease := by
  obtain ⟨operations, rfl⟩ := operates
  exact (sound.reissues_run operations).lastLease

end Cache

namespace Dispatcher

open Cache (Operates)

variable {dispatcher after : Dispatcher} {connection : Connection}

/-- The cache keeps the bounds, and the gets that are being delivered are of short keys and under
leases that were issued. -/
structure Bounded (dispatcher : Dispatcher) : Prop where
  cache : dispatcher.cache.Bounded
  transfers : ∀ slot transfer, dispatcher.inFlight.find? slot = some transfer →
    transfer.key.length ≤ Key.maxLength ∧ transfer.lease ≤ dispatcher.cache.lastLease

namespace Bounded

/-- A dispatcher that operates on its cache and begins no get keeps the bounds. -/
theorem operates (bounded : dispatcher.Bounded)
    (operates : Operates dispatcher.cache after.cache)
    (older : ∀ slot transfer, after.inFlight.find? slot = some transfer →
      dispatcher.inFlight.find? slot = some transfer) : after.Bounded where
  cache := bounded.cache.operates operates
  transfers slot transfer found := by
    obtain ⟨short, issued⟩ := bounded.transfers slot transfer (older slot transfer found)
    exact ⟨short, Nat.le_trans issued (operates.lastLease_le bounded.cache.sound)⟩

/-- A get that begins is entered with its key, which leads to a version, and its lease, which is
the last one. -/
theorem beginGet (bounded : dispatcher.Bounded) (connection : Connection) (id : UInt64)
    (key : Key) : (dispatcher.beginGet connection id key).1.Bounded := by
  have operates := dispatcher.operates_beginGet connection id key
  cases begun : dispatcher.beginGet connection id key with
  | mk next result =>
      rw [begun] at operates
      cases result with
      | error error =>
          refine bounded.operates operates fun slot transfer found => ?_
          rwa [(of_beginGet_error begun).1] at found
      | ok handle =>
          obtain ⟨leased, got, -, rfl⟩ := of_beginGet_ok begun
          obtain ⟨rfl, number, last, version, leases⟩ := Cache.of_get_ok got
          have held : leased.leases.find? handle.lease = some ⟨handle.key, version⟩ := by
            rw [leases, number, Table.find?_insert_self]
          have kept := bounded.cache.operates operates
          refine ⟨kept, fun slot transfer found => ?_⟩
          rcases Table.of_find?_insert found with ⟨-, rfl⟩ | ⟨-, before⟩
          · exact ⟨kept.key_of_held held, Nat.le_of_eq (number.trans last.symm)⟩
          · obtain ⟨short, issued⟩ := bounded.transfers slot transfer before
            exact ⟨short, Nat.le_trans issued (operates.lastLease_le bounded.cache.sound)⟩

theorem finish (bounded : dispatcher.Bounded) (connection : Connection) (id : UInt64) :
    (dispatcher.finish connection id).1.Bounded := by
  refine bounded.operates (dispatcher.operates_finish connection id) fun slot transfer found => ?_
  unfold Dispatcher.finish at found
  dsimp only at found
  split at found
  · exact found
  · exact (Table.of_find?_erase found).2

theorem releaseSlots (bounded : dispatcher.Bounded) (slots : List Slot) :
    (Dispatcher.releaseSlots slots dispatcher).1.Bounded := by
  induction slots generalizing dispatcher with
  | nil => exact bounded
  | cons slot rest ih =>
      rw [Dispatcher.releaseSlots]
      split
      · exact ih bounded
      · next transfer _ =>
          exact ih (bounded.operates (.step _ (.release transfer.key transfer.lease))
            fun other another found => (Table.of_find?_erase found).2)

end Bounded

/-- **Every state of a dispatcher keeps the bounds.** -/
theorem Reachable.bounded (reachable : dispatcher.Reachable) : dispatcher.Bounded := by
  induction reachable with
  | created reachable => exact ⟨reachable.bounded, fun slot transfer found => by cases found⟩
  | openConnection transport _ ih => exact ⟨ih.cache, ih.transfers⟩
  | beginGet id key _ _ ih => exact ih.beginGet _ id key
  | finish connection id _ ih => exact ih.finish connection id
  | disconnect connection _ ih => exact ih.releaseSlots _
  | operate operation _ ih => exact ih.operates (.step _ operation) fun _ _ found => found
  | overwrite memory _ ih => exact ⟨ih.cache.overwrite memory, ih.transfers⟩

end Dispatcher

end LeaseCache
