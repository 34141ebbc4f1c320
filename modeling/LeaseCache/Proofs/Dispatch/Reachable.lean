import LeaseCache.Proofs.Cache.LeaseSafety
import LeaseCache.Proofs.Cache.Room
import LeaseCache.Proofs.Dispatch.Answering
import LeaseCache.Proofs.Dispatch.Ledger

/-!
# The states of a dispatcher

A dispatcher starts in front of a cache. Then connections are opened and lost,
gets begin and end on open connections, in any order and any number of them at a
time, the cache is used directly, and remote writes may change the bytes of its
arena (`Dispatcher.Reachable`). Dispatching a request is made of these steps,
whatever its delivery and whatever is done meanwhile (`Reachable.dispatchAmid`).

In all these states the tables agree with each other, no stored object is larger
than the settings allow, and every get that is being delivered is one of a
connection that was opened (`Reachable.regular`). So a new connection begins with
no number in use (`Regular.free`).
-/

set_option autoImplicit false

namespace LeaseCache

namespace Cache

variable {cache : Cache}

/-- A cache whose tables agree and whose objects are no larger than a frame can carry. -/
structure Regular (cache : Cache) : Prop where
  sound : cache.Sound
  limit : cache.config.maxObjectSize ≤ maxValueLength
  sizes : ∀ version ∈ cache.stored, version.size ≤ cache.config.maxObjectSize

theorem Regular.create {config : CacheConfig} (created : create config = .ok cache) :
    cache.Regular := by
  obtain ⟨valid, rfl⟩ := eq_of_create created
  obtain ⟨-, -, ⟨-, limit⟩, -, -⟩ := CacheConfig.validate_eq_ok_iff.mp valid
  exact ⟨.create created, limit, fun version member => by cases member⟩

/-- **No operation stores an object that is too large.** -/
theorem Regular.step (regular : cache.Regular) (operation : Operation) :
    (cache.step operation).Regular := by
  have sound := regular.sound
  have config := sound.config_step operation
  refine ⟨sound.step operation, config ▸ regular.limit, fun version member => ?_⟩
  rw [config]
  by_cases older : version.id ≤ cache.lastVersion
  · obtain ⟨old, before, alike, -⟩ := (sound.follows_step operation).kept version member older
    have size : version.size = old.size := congrArg Region.length alike.region.symm
    exact size ▸ regular.sizes old before
  · obtain ⟨payload, -, ⟨stored, -⟩, size, -⟩ :=
      sound.stores_of_newer member (Nat.lt_of_not_le older)
    obtain ⟨-, -, allowed, -⟩ := checkPut_eq_ok_iff.mp (checkPut_of_put_ok stored)
    exact size ▸ allowed

theorem Regular.run (regular : cache.Regular) (operations : List Operation) :
    (cache.run operations).Regular := by
  induction operations generalizing cache with
  | nil => exact regular
  | cons operation rest ih => exact ih (regular.step operation)

theorem Reachable.regular (reachable : cache.Reachable) : cache.Regular := by
  induction reachable with
  | created created => exact .create created
  | step operation _ ih => exact ih.step operation

/-- A cache with other bytes in its arena. -/
def overwrite (cache : Cache) (memory : Memory) : Cache := { cache with arena.memory := memory }

/-- The tables do not depend on the bytes. -/
theorem Regular.overwrite (regular : cache.Regular) (memory : Memory) :
    (cache.overwrite memory).Regular where
  sound := ⟨regular.sound.accounted.congr rfl rfl rfl rfl rfl rfl, regular.sound.housed.write memory⟩
  limit := regular.limit
  sizes := regular.sizes

/-! ## Answering -/

variable {key : Key}

/-- What a `get` leases can be read, and it is not larger than the largest value. -/
theorem Regular.read_of_get (regular : cache.Regular) {leased : Cache} {handle : Handle}
    (got : cache.get key = (leased, .ok handle)) :
    ∃ bytes, leased.read handle = .ok bytes ∧ bytes.size = handle.size ∧
      handle.size ≤ maxValueLength := by
  obtain ⟨version, found, -, place, size⟩ := found_of_get got
  have member := mem_stored_of_live found
  have inside : handle.region.stop ≤ cache.arena.capacity := by
    rw [place]
    exact regular.sound.housed.holds.inside (List.mem_map_of_mem member)
  obtain ⟨bytes, read⟩ := Cache.read_of_get got inside
  obtain ⟨-, content⟩ := of_read_ok read
  refine ⟨bytes, read, ?_, ?_⟩
  · rw [content, size, Cache.bytes, Memory.size_read, place, Version.size]
  · rw [size]
    exact Nat.le_trans (regular.sizes version member) regular.limit

/-- A get fails because its key is not there. -/
theorem notFound_of_get_error {missed : Cache} {error : CacheError}
    (failed : cache.get key = (missed, .error error)) : error = .notFound := by
  cases found : cache.live.find? key with
  | none =>
      rw [get_of_absent found] at failed
      exact (Except.error.inj (Prod.mk.inj failed).2).symm
  | some version =>
      obtain ⟨stamp, recency, same⟩ := get_eq found
      cases same.symm.trans failed

/-- Answering a request takes no lease that it does not give back. -/
theorem Sound.leases_answer (sound : cache.Sound) (deliver : Delivery) (request : Request) :
    (cache.answer deliver request).1.leases = cache.leases := by
  have restored : Dispatcher.Restored (.create cache)
      ((Dispatcher.create cache).dispatchAmid deliver [] ⟨.tcp, 0⟩ request).1 :=
    .dispatchAmid sound deliver (fun operation none => by cases none) _ request
  rw [Dispatcher.dispatchAmid_nil, Dispatcher.dispatch_of_free rfl] at restored
  exact restored.leases

theorem Regular.answer (regular : cache.Regular) (deliver : Delivery) (request : Request) :
    (cache.answer deliver request).1.Regular := by
  obtain ⟨operations, same⟩ := exists_run_of_answer deliver cache request
  rw [same]
  exact regular.run operations

end Cache

namespace Dispatcher

/-- The states of a dispatcher. -/
inductive Reachable : Dispatcher → Prop where
  | created {cache : Cache} (reachable : cache.Reachable) : Reachable (create cache)
  | openConnection {dispatcher : Dispatcher} (transport : Transport)
      (earlier : Reachable dispatcher) : Reachable (dispatcher.openConnection transport).1
  | beginGet {dispatcher : Dispatcher} {connection : Connection} (id : UInt64) (key : Key)
      (opened : connection.id < dispatcher.nextConnection) (earlier : Reachable dispatcher) :
      Reachable (dispatcher.beginGet connection id key).1
  | finish {dispatcher : Dispatcher} (connection : Connection) (id : UInt64)
      (earlier : Reachable dispatcher) : Reachable (dispatcher.finish connection id).1
  | disconnect {dispatcher : Dispatcher} (connection : Connection)
      (earlier : Reachable dispatcher) : Reachable (dispatcher.disconnect connection).1
  | operate {dispatcher : Dispatcher} (operation : Cache.Operation)
      (earlier : Reachable dispatcher) :
      Reachable { dispatcher with cache := dispatcher.cache.step operation }
  | overwrite {dispatcher : Dispatcher} (memory : Memory) (earlier : Reachable dispatcher) :
      Reachable { dispatcher with cache := dispatcher.cache.overwrite memory }

variable {dispatcher : Dispatcher} {connection : Connection}

/-! ## Dispatching is made of these steps -/

theorem Reachable.run (reachable : dispatcher.Reachable) (operations : List Cache.Operation) :
    Reachable { dispatcher with cache := dispatcher.cache.run operations } := by
  induction operations generalizing dispatcher with
  | nil => exact reachable
  | cons operation rest ih => exact ih (reachable.operate operation)

theorem Reachable.dispatchAmid (reachable : dispatcher.Reachable) (deliver : Delivery)
    (meanwhile : List Cache.Operation) (opened : connection.id < dispatcher.nextConnection)
    (request : Request) :
    (dispatcher.dispatchAmid deliver meanwhile connection request).1.Reachable := by
  have begins := reachable.beginGet request.id request.key opened
  unfold Dispatcher.dispatchAmid
  cases started : dispatcher.start connection request with
  | mk next progress =>
      cases progress with
      | delivering handle =>
          rw [(of_start_delivering started).2] at begins
          exact (begins.run meanwhile).finish connection request.id
      | answered response =>
          dsimp only
          by_cases asks : request.operation = .get
          · obtain ⟨error, failed, -⟩ := of_start_answered asks started
            rwa [failed] at begins
          · unfold start at started
            cases operation : request.operation with
            | get => exact absurd operation asks
            | put =>
                rw [operation] at started
                obtain ⟨rfl, -⟩ := Prod.mk.inj started
                unfold storePayload
                cases request.payload with
                | none => exact reachable
                | some payload => exact reachable.operate (.put request.key payload)
            | delete =>
                rw [operation] at started
                obtain ⟨rfl, -⟩ := Prod.mk.inj started
                exact reachable.operate (.delete request.key)
            | _ =>
                rw [operation] at started
                obtain ⟨rfl, -⟩ := Prod.mk.inj started
                exact reachable

/-! ## What holds in all of them -/

/-- A regular cache, and gets only of connections that were opened. -/
structure Regular (dispatcher : Dispatcher) : Prop where
  cache : dispatcher.cache.Regular
  issued : ∀ slot transfer, dispatcher.inFlight.find? slot = some transfer →
    slot.connection < dispatcher.nextConnection

theorem Regular.beginGet (regular : dispatcher.Regular)
    (opened : connection.id < dispatcher.nextConnection) (id : UInt64) (key : Key) :
    (dispatcher.beginGet connection id key).1.Regular := by
  have leased := regular.cache.step (.get key)
  unfold Dispatcher.beginGet
  rw [Cache.step] at leased
  cases got : dispatcher.cache.get key with
  | mk next result =>
      rw [got] at leased
      cases result with
      | error error => exact ⟨leased, regular.issued⟩
      | ok handle =>
          dsimp only
          split
          · exact ⟨leased.step (.release handle.key handle.lease), regular.issued⟩
          · refine ⟨leased, fun slot transfer found => ?_⟩
            rcases Table.of_find?_insert found with ⟨rfl, -⟩ | ⟨-, before⟩
            · exact opened
            · exact regular.issued slot transfer before

/-- Forgetting a get is releasing its lease. -/
theorem Regular.forget (regular : dispatcher.Regular) (slot : Slot) (transfer : Transfer) :
    Regular { dispatcher with
      cache := (dispatcher.cache.release transfer.key transfer.lease).1
      inFlight := dispatcher.inFlight.erase slot } where
  cache := regular.cache.step (.release transfer.key transfer.lease)
  issued other another found := regular.issued other another (Table.of_find?_erase found).2

theorem Regular.finish (regular : dispatcher.Regular) (connection : Connection) (id : UInt64) :
    (dispatcher.finish connection id).1.Regular := by
  unfold Dispatcher.finish
  dsimp only
  cases dispatcher.inFlight.find? ⟨connection.id, id⟩ with
  | none => exact regular
  | some transfer => exact regular.forget ⟨connection.id, id⟩ transfer

theorem Regular.releaseSlots (regular : dispatcher.Regular) (slots : List Slot) :
    (releaseSlots slots dispatcher).1.Regular := by
  induction slots generalizing dispatcher with
  | nil => exact regular
  | cons slot rest ih =>
      rw [Dispatcher.releaseSlots]
      cases dispatcher.inFlight.find? slot with
      | none => exact ih regular
      | some transfer => exact ih (regular.forget slot transfer)

/-- **Every state of a dispatcher is regular.** -/
theorem Reachable.regular (reachable : dispatcher.Reachable) : dispatcher.Regular := by
  induction reachable with
  | created reachable => exact ⟨reachable.regular, fun slot transfer found => by cases found⟩
  | openConnection transport _ ih =>
      exact ⟨ih.cache, fun slot transfer found => Nat.lt_succ_of_lt (ih.issued slot transfer found)⟩
  | beginGet id key opened _ ih => exact ih.beginGet opened id key
  | finish connection id _ ih => exact ih.finish connection id
  | disconnect connection _ ih => exact ih.releaseSlots _
  | operate operation _ ih => exact ⟨ih.cache.step operation, ih.issued⟩
  | overwrite memory _ ih => exact ⟨ih.cache.overwrite memory, ih.issued⟩

/-- **No number is in use on a connection that has just been opened.** -/
theorem Regular.free (regular : dispatcher.Regular) (id : UInt64) :
    dispatcher.inFlight.find? ⟨dispatcher.nextConnection, id⟩ = none := by
  cases found : dispatcher.inFlight.find? ⟨dispatcher.nextConnection, id⟩ with
  | none => rfl
  | some transfer => exact absurd (regular.issued _ transfer found) (Nat.lt_irrefl _)

end Dispatcher

end LeaseCache
