import LeaseCache.Proofs.Dispatch.Delivering
import LeaseCache.Proofs.Remote.Writing

/-!
# What a cache answers

The answer to a request depends on the cache alone, once its number is not in
use on its connection: a dispatcher does to its cache what `Cache.answer` does,
gives the same response, and delivers afterwards what it delivered before
(`dispatch_of_free`). The answer to a get comes from the delivery of its value,
and the lease that was taken for it is always given back.
-/

set_option autoImplicit false

namespace LeaseCache

/-- The response to a get whose value has been delivered. -/
def Response.delivered (id : UInt64) (size : Nat) : Option ByteArray → Response
  | some bytes => .withPayload id bytes
  | none => .withLength id size.toUInt64

namespace Cache

/-- What a cache does with a request, and its response. -/
def answer (deliver : Delivery) (cache : Cache) (request : Request) : Cache × Response :=
  let respond : Except CacheError Response → Response := Response.ofOutcome request.id
  match request.operation with
  | .get =>
      match cache.get request.key with
      | (missed, .error error) => (missed, respond (.error error))
      | (leased, .ok handle) =>
          ((leased.release handle.key handle.lease).1,
            respond ((deliver leased handle request).map
              (Response.delivered request.id handle.size)))
  | .put =>
      let (stored, outcome) := Dispatcher.storePayload cache request
      (stored, respond (outcome.map fun _ => Response.ok request.id))
  | .delete =>
      let (deleted, outcome) := cache.delete request.key
      (deleted, respond (outcome.map fun _ => Response.ok request.id))
  | .exists =>
      (cache, respond
        (if cache.contains request.key then .ok (Response.ok request.id) else .error .notFound))
  | .size =>
      (cache, respond ((cache.objectSize request.key).map fun size =>
        Response.withLength request.id size.toUInt64))
  | .stats => (cache, respond (.ok (Response.withPayload request.id cache.stats.toBytes)))
  | .ping => (cache, respond (.ok (Response.ok request.id)))

end Cache

namespace Dispatcher

variable {dispatcher next : Dispatcher} {connection : Connection} {request : Request}
  {handle : Handle}

/-- **Completing a get** gives its lease back, which succeeds, and the response is that of its
delivery. -/
theorem complete_eq
    (started : dispatcher.start connection request = (next, .delivering handle))
    (delivered : Delivered) :
    next.complete connection request handle delivered =
      ({ dispatcher with cache := (next.cache.release handle.key handle.lease).1 },
        Response.ofOutcome request.id
          (delivered.map (Response.delivered request.id handle.size))) := by
  refine Prod.ext (complete_of_start started next.cache delivered) ?_
  obtain ⟨leased, got, -, rfl⟩ := of_beginGet_ok (of_start_delivering started).2
  have released := (Cache.release_of_get got).1
  rw [complete, finish]
  dsimp only
  rw [Table.find?_insert_self]
  dsimp only
  rw [released]
  cases delivered with
  | error error => rfl
  | ok payload => cases payload <;> rfl

theorem dispatch_of_delivering
    (started : dispatcher.start connection request = (next, .delivering handle))
    (deliver : Delivery) :
    dispatcher.dispatch deliver connection request =
      next.complete connection request handle (deliver next.cache handle request) := by
  rw [dispatch, started]

/-- A get whose number is not in use leases its value and is delivered. -/
theorem start_of_get {leased : Cache} (asks : request.operation = .get)
    (free : dispatcher.inFlight.find? ⟨connection.id, request.id⟩ = none)
    (got : dispatcher.cache.get request.key = (leased, .ok handle)) :
    dispatcher.start connection request =
      ({ dispatcher with
          cache := leased
          inFlight := dispatcher.inFlight.insert ⟨connection.id, request.id⟩
            ⟨handle.key, handle.lease⟩ }, .delivering handle) := by
  have unused : ¬ dispatcher.inFlight.contains ⟨connection.id, request.id⟩ = true := by
    rw [Table.contains, free]
    exact Bool.false_ne_true
  rw [start, asks]
  dsimp only
  rw [beginGet, got]
  dsimp only
  rw [if_neg unused]

/-- **A dispatcher answers what its cache answers** if the number of the request is not in use. -/
theorem dispatch_of_free
    (free : dispatcher.inFlight.find? ⟨connection.id, request.id⟩ = none) (deliver : Delivery) :
    dispatcher.dispatch deliver connection request =
      ({ dispatcher with cache := (dispatcher.cache.answer deliver request).1 },
        (dispatcher.cache.answer deliver request).2) := by
  cases asks : request.operation with
  | get =>
      cases got : dispatcher.cache.get request.key with
      | mk leased result =>
          cases result with
          | error error =>
              rw [dispatch, start, Cache.answer, asks]
              dsimp only
              rw [beginGet, got]
          | ok handle =>
              have started := start_of_get asks free got
              rw [dispatch_of_delivering started, complete_eq started, Cache.answer, asks]
              dsimp only
              rw [got]
  | _ =>
      rw [dispatch, start, Cache.answer, asks]

end Dispatcher

namespace Response

variable {α : Type} {id : UInt64}

/-- A failure has the number of the request, so only a success may have another one. -/
theorem id_ofOutcome_map {respond : α → Response} (named : ∀ value, (respond value).id = id)
    (outcome : Except CacheError α) : (ofOutcome id (outcome.map respond)).id = id := by
  cases outcome with
  | error error => rfl
  | ok value => exact named value

theorem id_delivered (id : UInt64) (size : Nat) (payload : Option ByteArray) :
    (Response.delivered id size payload).id = id := by
  cases payload <;> rfl

end Response

namespace Cache

variable {cache : Cache} {request : Request} {deliver : Delivery}

/-- The response has the number of the request. -/
theorem id_answer (deliver : Delivery) (cache : Cache) (request : Request) :
    (cache.answer deliver request).2.id = request.id := by
  rw [answer]
  cases request.operation with
  | get =>
      dsimp only
      split
      · rfl
      · exact Response.id_ofOutcome_map (Response.id_delivered _ _) _
  | put => exact Response.id_ofOutcome_map (fun _ => rfl) _
  | delete => exact Response.id_ofOutcome_map (fun _ => rfl) _
  | «exists» =>
      dsimp only
      split <;> rfl
  | size =>
      apply Response.id_ofOutcome_map
      intro size
      rfl
  | stats => rfl
  | ping => rfl

/-- **What a request does to a cache is done by operations of the cache**: a get leases and
releases, and every other request is at most one operation. -/
theorem exists_run_of_answer (deliver : Delivery) (cache : Cache) (request : Request) :
    ∃ operations : List Operation, (cache.answer deliver request).1 = cache.run operations := by
  rw [answer]
  cases request.operation with
  | get =>
      dsimp only
      split
      · next missed error got =>
          exact ⟨[.get request.key], (congrArg Prod.fst got).symm⟩
      · next leased handle got =>
          refine ⟨[.get request.key, .release handle.key handle.lease], ?_⟩
          rw [run_cons, step, got]
          rfl
  | put =>
      dsimp only
      rw [Dispatcher.storePayload]
      cases request.payload with
      | none => exact ⟨[], rfl⟩
      | some payload => exact ⟨[.put request.key payload], rfl⟩
  | delete => exact ⟨[.delete request.key], rfl⟩
  | «exists» => exact ⟨[], rfl⟩
  | size => exact ⟨[], rfl⟩
  | stats => exact ⟨[], rfl⟩
  | ping => exact ⟨[], rfl⟩

/-! ## Several requests -/

/-- What a cache does with some requests, one after the other, and its responses. -/
def answerAll (deliver : Delivery) : List Request → Cache → Cache × List Response
  | [], cache => (cache, [])
  | request :: rest, cache =>
      let (next, response) := cache.answer deliver request
      let (last, responses) := answerAll deliver rest next
      (last, response :: responses)

theorem id_answerAll (deliver : Delivery) (requests : List Request) (cache : Cache) :
    (answerAll deliver requests cache).2.map Response.id = requests.map Request.id := by
  induction requests generalizing cache with
  | nil => rfl
  | cons request rest ih =>
      rw [answerAll, List.map_cons, List.map_cons, id_answer, ih]

end Cache

end LeaseCache
