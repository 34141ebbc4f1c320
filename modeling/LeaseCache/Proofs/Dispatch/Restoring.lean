import LeaseCache.Proofs.Dispatch
import LeaseCache.Proofs.Dispatch.Delivering

/-!
# What a dispatch restores

Most operations of a cache neither take nor give back a lease (`Operation.Quiet`).
A dispatch does both if it serves a get, and still it leaves the gets that are
being delivered and the table of the leases exactly as they were
(`Restored.dispatchAmid`). This holds for every request and every outcome of the
delivery, and whatever quiet operations are done to the cache during the
delivery: the lease is given back when the delivery is over, and it is given
back at once if the number of the get is taken.
-/

set_option autoImplicit false

namespace LeaseCache

namespace Dispatcher

/-- Answers a request while something is done to the cache during the delivery. -/
def dispatchAmid (deliver : Delivery) (meanwhile : List Cache.Operation) (dispatcher : Dispatcher)
    (connection : Connection) (request : Request) : Dispatcher × Response :=
  match dispatcher.start connection request with
  | (next, .answered response) => (next, response)
  | (next, .delivering handle) =>
      complete { next with cache := next.cache.run meanwhile } connection request handle
        (deliver next.cache handle request)

/-- If nothing is done during the delivery this is what a dispatcher does. -/
theorem dispatchAmid_nil (deliver : Delivery) (dispatcher : Dispatcher) (connection : Connection)
    (request : Request) :
    dispatcher.dispatchAmid deliver [] connection request =
      dispatcher.dispatch deliver connection request := rfl

variable {dispatcher : Dispatcher} {connection : Connection} {request : Request} {key : Key}
  {id : UInt64}

/-- A dispatcher delivers the same gets as before under the same leases, and its cache has moved
on. -/
structure Restored (before after : Dispatcher) : Prop where
  inFlight : after.inFlight = before.inFlight
  leases : after.cache.leases = before.cache.leases
  lastLease : before.cache.lastLease ≤ after.cache.lastLease
  sound : after.cache.Sound
  follows : Cache.Follows before.cache after.cache

theorem Restored.refl (sound : dispatcher.cache.Sound) : Restored dispatcher dispatcher :=
  ⟨rfl, rfl, Nat.le_refl _, sound, .refl _⟩

/-- A quiet operation on the cache restores everything. -/
theorem Restored.of_quiet (sound : dispatcher.cache.Sound) {operation : Cache.Operation}
    (quiet : operation.Quiet) :
    Restored dispatcher { dispatcher with cache := dispatcher.cache.step operation } :=
  have same := sound.sameLeases_step quiet
  ⟨rfl, same.leases, Nat.le_of_eq same.lastLease.symm, sound.step operation,
    sound.follows_step operation⟩

/-- A `get` that fails restores everything. -/
theorem Restored.of_get_error (sound : dispatcher.cache.Sound) {missed : Cache}
    {error : CacheError} (failed : dispatcher.cache.get key = (missed, .error error)) :
    Restored dispatcher { dispatcher with cache := missed } := by
  obtain ⟨leases, lastLease⟩ := Cache.of_get_error failed
  have next : dispatcher.cache.step (.get key) = missed := congrArg Prod.fst failed
  have later := sound.step (.get key)
  have follows := sound.follows_step (.get key)
  rw [next] at later follows
  exact ⟨rfl, leases, Nat.le_of_eq lastLease.symm, later, follows⟩

/-- **A lease that is given back after quiet operations leaves the table of the leases as it was.** -/
theorem Restored.of_release (sound : dispatcher.cache.Sound) {leased : Cache} {handle : Handle}
    (got : dispatcher.cache.get key = (leased, .ok handle)) {meanwhile : List Cache.Operation}
    (quiet : ∀ operation ∈ meanwhile, operation.Quiet) :
    Restored dispatcher { dispatcher with
      cache := ((leased.run meanwhile).release handle.key handle.lease).1 } := by
  obtain ⟨name, number, last, version, leases⟩ := Cache.of_get_ok got
  have next : dispatcher.cache.step (.get key) = leased := congrArg Prod.fst got
  have leasedSound := sound.step (.get key)
  have follows := sound.follows_step (.get key)
  rw [next] at leasedSound follows
  have same := leasedSound.sameLeases_run quiet
  have later := leasedSound.run meanwhile
  have held : (leased.run meanwhile).leases.find? handle.lease = some ⟨handle.key, version⟩ := by
    rw [same.leases, leases, number, name, Table.find?_insert_self]
  have absent := sound.accounted.fresh_lease
  obtain ⟨erased, -, lastLease⟩ := Cache.of_release_ok (later.accounted.release_ok held)
  refine ⟨rfl, ?_, ?_, later.step (.release _ _), ?_⟩
  · dsimp only
    rw [erased, same.leases, leases, number, Table.erase_insert absent]
  · dsimp only
    rw [lastLease, same.lastLease, last]
    exact Nat.le_succ _
  · exact (follows.trans (leasedSound.follows_run meanwhile)).trans
      (later.follows_step (.release _ _))

/-- A get that does not begin restores everything. -/
theorem Restored.of_beginGet_error (sound : dispatcher.cache.Sound) {next : Dispatcher}
    {error : CacheError} (failed : dispatcher.beginGet connection id key = (next, .error error)) :
    Restored dispatcher next := by
  unfold Dispatcher.beginGet at failed
  cases got : dispatcher.cache.get key with
  | mk leased result =>
      rw [got] at failed
      cases result with
      | error _ =>
          obtain ⟨rfl, -⟩ := Prod.mk.inj failed
          exact .of_get_error sound got
      | ok handle =>
          dsimp only at failed
          split at failed
          · obtain ⟨rfl, -⟩ := Prod.mk.inj failed
            have none : ∀ operation ∈ ([] : List Cache.Operation), operation.Quiet :=
              fun operation member => by cases member
            exact .of_release sound got none
          · cases (Prod.mk.inj failed).2

/-- **A dispatch leaves the gets and the leases exactly as they were**, whatever its request, its
delivery and what is done during the delivery. -/
theorem Restored.dispatchAmid (sound : dispatcher.cache.Sound) (deliver : Delivery)
    {meanwhile : List Cache.Operation} (quiet : ∀ operation ∈ meanwhile, operation.Quiet)
    (connection : Connection) (request : Request) : Restored dispatcher
      (dispatcher.dispatchAmid deliver meanwhile connection request).1 := by
  unfold Dispatcher.dispatchAmid
  cases started : dispatcher.start connection request with
  | mk next progress =>
      cases progress with
      | delivering handle =>
          obtain ⟨leased, got, -, same⟩ := of_beginGet_ok (of_start_delivering started).2
          have cache : next.cache = leased := congrArg Dispatcher.cache same
          dsimp only
          rw [complete_of_start started, cache]
          exact .of_release sound got quiet
      | answered response =>
          by_cases asks : request.operation = .get
          · obtain ⟨error, failed, -⟩ := of_start_answered asks started
            exact .of_beginGet_error sound failed
          · unfold start at started
            cases operation : request.operation with
            | get => exact absurd operation asks
            | put =>
                rw [operation] at started
                obtain ⟨rfl, -⟩ := Prod.mk.inj started
                unfold Dispatcher.storePayload
                cases request.payload with
                | none => exact .refl sound
                | some payload =>
                    have quiet : Cache.Operation.Quiet (.put request.key payload) := trivial
                    exact .of_quiet sound quiet
            | delete =>
                rw [operation] at started
                obtain ⟨rfl, -⟩ := Prod.mk.inj started
                have quiet : Cache.Operation.Quiet (.delete request.key) := trivial
                exact .of_quiet sound quiet
            | _ =>
                rw [operation] at started
                obtain ⟨rfl, -⟩ := Prod.mk.inj started
                exact .refl sound

end Dispatcher

end LeaseCache
