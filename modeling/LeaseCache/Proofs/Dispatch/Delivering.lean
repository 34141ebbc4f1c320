import LeaseCache.Dispatch
import LeaseCache.Proofs.Cache.Borrowing

/-!
# Around a delivery

A get that can be delivered has found its key live and its slot free, and it has
entered its lease there (`of_start_delivering`). Completing it takes the entry
out again and gives the lease back, to whatever the cache has become meanwhile,
and that is all that is left of the get (`complete_of_start`).

A get that is answered without a delivery has taken a lease only to give it back
at once, if it has taken one at all (`of_beginGet_error`).
-/

set_option autoImplicit false

namespace LeaseCache

namespace Dispatcher

variable {dispatcher next : Dispatcher} {connection : Connection} {id : UInt64} {key : Key}
  {handle : Handle} {error : CacheError} {request : Request}

/-! ## Beginning a get -/

/-- A get that begins has leased its key and entered the lease in a free slot. -/
theorem of_beginGet_ok (begun : dispatcher.beginGet connection id key = (next, .ok handle)) :
    ∃ leased, dispatcher.cache.get key = (leased, .ok handle) ∧
      dispatcher.inFlight.find? ⟨connection.id, id⟩ = none ∧
      next = { dispatcher with
        cache := leased
        inFlight :=
          dispatcher.inFlight.insert ⟨connection.id, id⟩ ⟨handle.key, handle.lease⟩ } := by
  unfold beginGet at begun
  cases got : dispatcher.cache.get key with
  | mk leased result =>
      rw [got] at begun
      cases result with
      | error error => cases (Prod.mk.inj begun).2
      | ok other =>
          dsimp only at begun
          split at begun
          · next taken =>
              rw [(Cache.release_of_get got).1] at begun
              cases (Prod.mk.inj begun).2
          · next free =>
              obtain ⟨rfl, result⟩ := Prod.mk.inj begun
              obtain rfl := Except.ok.inj result
              refine ⟨leased, rfl, ?_, rfl⟩
              simpa [Table.contains] using free

/-- A get that does not begin leaves the gets that are being delivered and what is stored. -/
theorem of_beginGet_error
    (failed : dispatcher.beginGet connection id key = (next, .error error)) :
    next.inFlight = dispatcher.inFlight ∧ Cache.Borrows dispatcher.cache next.cache ∧
      (dispatcher.cache.live.find? key = none ∨
        dispatcher.inFlight.find? ⟨connection.id, id⟩ ≠ none) := by
  unfold beginGet at failed
  cases got : dispatcher.cache.get key with
  | mk leased result =>
      rw [got] at failed
      cases result with
      | error _ =>
          obtain ⟨rfl, -⟩ := Prod.mk.inj failed
          have borrows := Cache.borrows_get dispatcher.cache key
          rw [got] at borrows
          refine ⟨rfl, borrows, Or.inl ?_⟩
          cases found : dispatcher.cache.live.find? key with
          | none => rfl
          | some version =>
              obtain ⟨stamp, recency, same⟩ := Cache.get_eq found
              cases same.symm.trans got
      | ok _ =>
          dsimp only at failed
          split at failed
          · next taken =>
              obtain ⟨rfl, -⟩ := Prod.mk.inj failed
              refine ⟨rfl, (Cache.release_of_get got).2, Or.inr fun free => ?_⟩
              rw [Table.contains, free] at taken
              cases taken
          · cases (Prod.mk.inj failed).2

/-! ## Serving a get -/

/-- Only a get is delivered, and it has begun before. -/
theorem of_start_delivering
    (started : dispatcher.start connection request = (next, .delivering handle)) :
    request.operation = .get ∧
      dispatcher.beginGet connection request.id request.key = (next, .ok handle) := by
  unfold start at started
  cases operation : request.operation with
  | get =>
      rw [operation] at started
      dsimp only at started
      split at started
      · next begun =>
          obtain ⟨rfl, delivering⟩ := Prod.mk.inj started
          obtain rfl := Progress.delivering.inj delivering
          exact ⟨rfl, begun⟩
      · cases (Prod.mk.inj started).2
  | _ =>
      rw [operation] at started
      cases (Prod.mk.inj started).2

/-- A get that is answered without a delivery has not begun, and the answer is an error. -/
theorem of_start_answered {response : Response} (asks : request.operation = .get)
    (started : dispatcher.start connection request = (next, .answered response)) :
    ∃ error, dispatcher.beginGet connection request.id request.key = (next, .error error) ∧
      response = Response.failure request.id error := by
  unfold start at started
  rw [asks] at started
  dsimp only at started
  split at started
  · cases (Prod.mk.inj started).2
  · next error begun =>
      obtain ⟨rfl, answered⟩ := Prod.mk.inj started
      exact ⟨error, begun, (Progress.answered.inj answered).symm⟩

/-- **Completing a get takes out what its beginning has entered** and gives its lease back. -/
theorem complete_of_start
    (started : dispatcher.start connection request = (next, .delivering handle)) (later : Cache)
    (delivered : Delivered) :
    (Dispatcher.complete { next with cache := later } connection request handle delivered).1 =
      { dispatcher with cache := (later.release handle.key handle.lease).1 } := by
  obtain ⟨leased, -, free, rfl⟩ := of_beginGet_ok (of_start_delivering started).2
  have entered : (dispatcher.inFlight.insert ⟨connection.id, request.id⟩
      ⟨handle.key, handle.lease⟩).find? ⟨connection.id, request.id⟩ =
        some ⟨handle.key, handle.lease⟩ :=
    Table.find?_insert_self _ _ _
  rw [complete, finish]
  dsimp only
  rw [entered]
  dsimp only
  rw [Table.erase_insert free]

/-- A get whose delivery is over leaves what is stored. -/
theorem borrows_complete
    (started : dispatcher.start connection request = (next, .delivering handle))
    (delivered : Delivered) :
    Cache.Borrows dispatcher.cache
      (next.complete connection request handle delivered).1.cache := by
  obtain ⟨leased, got, -, same⟩ := of_beginGet_ok (of_start_delivering started).2
  have ended : (next.complete connection request handle delivered).1.cache =
      (next.cache.release handle.key handle.lease).1 :=
    congrArg Dispatcher.cache (complete_of_start started next.cache delivered)
  have cache : next.cache = leased := congrArg Dispatcher.cache same
  rw [ended, cache]
  exact (Cache.release_of_get got).2

end Dispatcher

end LeaseCache
