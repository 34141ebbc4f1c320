import LeaseCache.Cache.Store
import LeaseCache.Message
import LeaseCache.Stats
import LeaseCache.Table

/-!
# Answering requests

A dispatcher answers the requests of all connections from one cache. Most
requests are answered at once. A get is different: its value is leased, then it
is delivered to the client by whatever carries the connection, and then the
lease is released. The only state besides the cache is the table of the gets
that are being delivered, under their connection and request number, so that a
lost connection can give its leases back.

`start` does all that comes before a delivery and `complete` all that comes
after it; `dispatch` puts a delivery between the two.
-/

set_option autoImplicit false

namespace LeaseCache

/-- What carries a connection. -/
inductive Transport where
  | tcp
  | rdma
  deriving DecidableEq, Repr

/-- A connection under a number that no other connection has. -/
structure Connection where
  transport : Transport
  id : Nat
  deriving DecidableEq, Repr

/-- The place of a get that is being delivered. -/
structure Slot where
  connection : Nat
  request : UInt64
  deriving DecidableEq

/-- A get that is being delivered: its key and the lease it holds. -/
structure Transfer where
  key : Key
  lease : Nat
  deriving DecidableEq

/-- A cache, the gets that are being delivered from it, and the next connection number. -/
structure Dispatcher where
  cache : Cache
  inFlight : Table Slot Transfer
  nextConnection : Nat

/-- The outcome of a delivery: the bytes that travel with the response, if they do. -/
abbrev Delivered := Except CacheError (Option ByteArray)

/-- Moves the value behind a handle to the client that asked for it. -/
abbrev Delivery := Cache → Handle → Request → Delivered

/-- How far a request has come without a delivery. -/
inductive Progress where
  | answered (response : Response)
  | delivering (handle : Handle)
  deriving DecidableEq

/-- Delivers a value by putting it into the response. -/
def deliverInline : Delivery := fun cache handle _ => (cache.read handle).map some

namespace Dispatcher

/-- A dispatcher in front of a cache, without connections. -/
def create (cache : Cache) : Dispatcher where
  cache := cache
  inFlight := .empty
  nextConnection := 1

/-- Opens a connection. -/
def openConnection (dispatcher : Dispatcher) (transport : Transport) : Dispatcher × Connection :=
  ({ dispatcher with nextConnection := dispatcher.nextConnection + 1 },
    ⟨transport, dispatcher.nextConnection⟩)

/-- The number of gets that are being delivered. -/
def inFlightCount (dispatcher : Dispatcher) : Nat := dispatcher.inFlight.size

/-- Leases a key and records the get under its number. If the number is taken on this
connection the lease is released again. -/
def beginGet (dispatcher : Dispatcher) (connection : Connection) (id : UInt64) (key : Key) :
    Dispatcher × Except CacheError Handle :=
  match dispatcher.cache.get key with
  | (cache, .error error) => ({ dispatcher with cache := cache }, .error error)
  | (leased, .ok handle) =>
      let slot : Slot := ⟨connection.id, id⟩
      if dispatcher.inFlight.contains slot then
        let (cache, released) := leased.release handle.key handle.lease
        ({ dispatcher with cache := cache },
          released.bind fun _ => .error (.internal (.requestInFlight id.toNat connection.id)))
      else
        ({ dispatcher with
            cache := leased
            inFlight := dispatcher.inFlight.insert slot ⟨handle.key, handle.lease⟩ },
          .ok handle)

/-- Forgets a get and releases its lease. -/
def finish (dispatcher : Dispatcher) (connection : Connection) (id : UInt64) :
    Dispatcher × Except CacheError Unit :=
  let slot : Slot := ⟨connection.id, id⟩
  match dispatcher.inFlight.find? slot with
  | none => (dispatcher, .error .notFound)
  | some transfer =>
      let (cache, released) := dispatcher.cache.release transfer.key transfer.lease
      ({ dispatcher with cache := cache, inFlight := dispatcher.inFlight.erase slot }, released)

/-- Forgets gets in the given order, releases their leases, and gives the number of leases
that were still there to be released. -/
def releaseSlots : List Slot → Dispatcher → Dispatcher × Nat
  | [], dispatcher => (dispatcher, 0)
  | slot :: rest, dispatcher =>
      match dispatcher.inFlight.find? slot with
      | none => releaseSlots rest dispatcher
      | some transfer =>
          let (cache, released) := dispatcher.cache.release transfer.key transfer.lease
          let (last, count) := releaseSlots rest
            { dispatcher with cache := cache, inFlight := dispatcher.inFlight.erase slot }
          (last, if released.isOk then count + 1 else count)

/-- The places of the gets of a connection. -/
def slotsOf (dispatcher : Dispatcher) (connection : Connection) : List Slot :=
  (dispatcher.inFlight.entries.map Prod.fst).filter fun slot => slot.connection = connection.id

/-- Forgets all gets of a lost connection and releases their leases. -/
def disconnect (dispatcher : Dispatcher) (connection : Connection) : Dispatcher × Nat :=
  releaseSlots (dispatcher.slotsOf connection) dispatcher

/-- Stores the payload of a request. -/
def storePayload (cache : Cache) (request : Request) : Cache × Except CacheError Unit :=
  match request.payload with
  | some payload => cache.put request.key payload
  | none => (cache, .error (.invalidSize .missingPayload))

/-- Does all that a request asks for except a delivery. -/
def start (dispatcher : Dispatcher) (connection : Connection) (request : Request) :
    Dispatcher × Progress :=
  let cache := dispatcher.cache
  let answered (outcome : Except CacheError Response) : Progress :=
    .answered (Response.ofOutcome request.id outcome)
  let changed (outcome : Cache × Except CacheError Unit) : Dispatcher × Progress :=
    ({ dispatcher with cache := outcome.1 },
      answered (outcome.2.map fun _ => Response.ok request.id))
  match request.operation with
  | .get =>
      match dispatcher.beginGet connection request.id request.key with
      | (next, .ok handle) => (next, .delivering handle)
      | (next, .error error) => (next, answered (.error error))
  | .put => changed (storePayload cache request)
  | .delete => changed (cache.delete request.key)
  | .exists => (dispatcher, answered
      (if cache.contains request.key then .ok (Response.ok request.id) else .error .notFound))
  | .size => (dispatcher, answered ((cache.objectSize request.key).map fun size =>
      Response.withLength request.id size.toUInt64))
  | .stats => (dispatcher, answered (.ok (Response.withPayload request.id cache.stats.toBytes)))
  | .ping => (dispatcher, answered (.ok (Response.ok request.id)))

/-- Answers a get after its delivery. The lease is released also when the delivery failed, and
the error of a delivery is answered before that of a release. -/
def complete (dispatcher : Dispatcher) (connection : Connection) (request : Request)
    (handle : Handle) (delivered : Delivered) : Dispatcher × Response :=
  let (next, finished) := dispatcher.finish connection request.id
  (next, Response.ofOutcome request.id do
    let payload ← delivered
    finished
    match payload with
    | some bytes => return Response.withPayload request.id bytes
    | none => return Response.withLength request.id handle.size.toUInt64)

/-- Answers a request. -/
def dispatch (deliver : Delivery) (dispatcher : Dispatcher) (connection : Connection)
    (request : Request) : Dispatcher × Response :=
  match dispatcher.start connection request with
  | (next, .answered response) => (next, response)
  | (next, .delivering handle) =>
      next.complete connection request handle (deliver next.cache handle request)

end Dispatcher

end LeaseCache
