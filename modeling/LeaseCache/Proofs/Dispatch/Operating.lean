import LeaseCache.Proofs.Cache.Pinning
import LeaseCache.Proofs.Dispatch.Restoring

/-!
# Dispatchers operate on their caches

Whatever a dispatcher does to its cache is done by operations of the cache
(`Operates`). So a cache that is used through a dispatcher keeps its tables in
order, and a version that a lease pins stays pinned until the lease is given back
(`Operates.pins`).
-/

set_option autoImplicit false

namespace LeaseCache

namespace Cache

variable {cache before middle after : Cache} {lease : Nat} {record : Lease} {version : Version}
  {bytes : ByteArray}

/-- A state of a cache is reached from an earlier one by operations. -/
def Operates (before after : Cache) : Prop := ∃ operations, after = before.run operations

namespace Operates

theorem refl (cache : Cache) : Operates cache cache := ⟨[], rfl⟩

theorem step (cache : Cache) (operation : Operation) : Operates cache (cache.step operation) :=
  ⟨[operation], rfl⟩

theorem trans (early : Operates before middle) (late : Operates middle after) :
    Operates before after := by
  obtain ⟨first, rfl⟩ := early
  obtain ⟨second, rfl⟩ := late
  exact ⟨first ++ second, (run_append _ _ _).symm⟩

theorem sound (operates : Operates before after) (sound : before.Sound) : after.Sound := by
  obtain ⟨operations, rfl⟩ := operates
  exact sound.run operations

theorem follows (operates : Operates before after) (sound : before.Sound) :
    Follows before after := by
  obtain ⟨operations, rfl⟩ := operates
  exact sound.follows_run operations

end Operates

/-- **A version that a lease pins stays pinned** while the lease is outstanding. -/
theorem Operates.pins (operates : Operates before after) (sound : before.Sound)
    (pins : before.Pins lease version bytes) (outstanding : after.leases.find? lease ≠ none) :
    after.Pins lease version bytes := by
  obtain ⟨record, held⟩ := Option.ne_none_iff_exists'.mp outstanding
  refine sound.pins_of_follows (operates.follows sound) (operates.sound sound) pins ?_
  obtain ⟨operations, rfl⟩ := operates
  rw [held]
  exact ((sound.reissues_run operations).older held (sound.accounted.lease_le pins.record)).symm

end Cache

namespace Dispatcher

open Cache (Operates)

/-! ## What a dispatcher does -/

theorem operates_beginGet (dispatcher : Dispatcher) (connection : Connection) (id : UInt64)
    (key : Key) :
    Operates dispatcher.cache (dispatcher.beginGet connection id key).1.cache := by
  have leases := Operates.step dispatcher.cache (.get key)
  unfold beginGet
  rw [Cache.step] at leases
  cases got : dispatcher.cache.get key with
  | mk next result =>
      rw [got] at leases
      cases result with
      | error error => exact leases
      | ok handle =>
          dsimp only
          split
          · exact leases.trans (.step next (.release handle.key handle.lease))
          · exact leases

theorem operates_finish (dispatcher : Dispatcher) (connection : Connection) (id : UInt64) :
    Operates dispatcher.cache (dispatcher.finish connection id).1.cache := by
  unfold finish
  dsimp only
  split
  · exact .refl _
  · next transfer _ => exact .step _ (.release transfer.key transfer.lease)

theorem operates_releaseSlots (slots : List Slot) (dispatcher : Dispatcher) :
    Operates dispatcher.cache (releaseSlots slots dispatcher).1.cache := by
  induction slots generalizing dispatcher with
  | nil => exact .refl _
  | cons slot rest ih =>
      rw [releaseSlots]
      split
      · exact ih dispatcher
      · next transfer _ =>
          exact (Operates.step _ (.release transfer.key transfer.lease)).trans (ih _)

theorem operates_start (dispatcher : Dispatcher) (connection : Connection) (request : Request) :
    Operates dispatcher.cache (dispatcher.start connection request).1.cache := by
  have begins := dispatcher.operates_beginGet connection request.id request.key
  unfold start
  cases request.operation with
  | get =>
      dsimp only
      split
      · next begun => rwa [begun] at begins
      · next begun => rwa [begun] at begins
  | put =>
      dsimp only
      unfold storePayload
      split
      · next payload _ => exact .step _ (.put request.key payload)
      · exact .refl _
  | delete => exact .step _ (.delete request.key)
  | _ => exact .refl _

end Dispatcher

end LeaseCache
