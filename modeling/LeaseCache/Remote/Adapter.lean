import LeaseCache.Dispatch
import LeaseCache.Fabric

/-!
# The remote adapter

Remote clients post their requests to a queue, and one worker serves the queue
in order. A get is answered by a one-sided write of its value from the arena of
the cache into memory of the client; the response carries only the length.

A link can hold writes back. The worker then stands still at the write of the
get that it serves, with its lease and its bytes in hand, and goes on when the
link changes. A write into the very arena that it reads from waits for itself:
the worker never goes on. `advance` serves the queue as far as the worker gets.

The settings of an adapter (`AdapterConfig`) ask for a number of workers, of which
there is always at least one, and for a number of places in the queue. Here there
is one worker, and the queue always has room. Left out is so what several workers
do at the same time, and that a client that posts to a full queue waits for a
place before its request is posted.
-/

set_option autoImplicit false

namespace LeaseCache.Remote

/-- The memories that can be registered: the arena of the cache and numbered buffers. -/
inductive Holder where
  | store
  | buffer (number : Nat)
  deriving DecidableEq, Repr

/-- How the link treats writes and registrations. -/
inductive Link where
  | passing
  | holding
  | failing
  | refusing
  deriving DecidableEq, Repr

/-- Work for the worker. A request has a ticket under which its response is left. -/
inductive Work where
  | request (ticket : Nat) (connection : Connection) (request : Request)
  | disconnect (connection : Connection)
  deriving DecidableEq

/-- A get whose value is about to be written. -/
structure PendingGet where
  ticket : Nat
  connection : Connection
  request : Request
  handle : Handle
  location : Location
  data : ByteArray
  deriving DecidableEq

/-- What the worker does: it is free, or the link holds its write back, or its write waits
for the arena that it holds itself. -/
inductive Worker where
  | free
  | held (get : PendingGet)
  | stuck (get : PendingGet)
  deriving DecidableEq

/-- Whether the adapter takes work. -/
inductive Lifecycle where
  | running
  | stopping
  | stopped
  deriving DecidableEq, Repr

/-- A dispatcher behind a fabric, the buffers on the fabric, and the work of the worker.
Responses are left under the tickets of their requests. -/
structure Adapter where
  dispatcher : Dispatcher
  fabric : Fabric Holder
  descriptor : Descriptor
  buffers : Table Nat Arena
  link : Link
  queue : List Work
  worker : Worker
  lifecycle : Lifecycle
  posted : Nat
  responses : Table Nat Response

namespace Adapter

/-- The arena of a memory. A buffer that does not exist has no bytes. -/
def arenaOf (adapter : Adapter) : Holder → Arena
  | .store => adapter.dispatcher.cache.arena
  | .buffer number => (adapter.buffers.find? number).getD ⟨.fresh 0 1, .blank⟩

/-- Replaces the arena of a memory. -/
def setArena (adapter : Adapter) (arena : Arena) : Holder → Adapter
  | .store => { adapter with dispatcher.cache.arena := arena }
  | .buffer number => { adapter with buffers := adapter.buffers.insert number arena }

/-- Registers a memory, unless the link refuses. -/
def register (adapter : Adapter) (holder : Holder) :
    Except TransferError (Adapter × Descriptor) :=
  if adapter.link = .refusing then .error .registrationRefused
  else
    let (fabric, descriptor) := adapter.fabric.register holder (adapter.arenaOf holder).capacity
    .ok ({ adapter with fabric := fabric }, descriptor)

/-- Ends the registrations that a descriptor lists. -/
def deregister (adapter : Adapter) (descriptor : Descriptor) : Adapter :=
  { adapter with fabric := adapter.fabric.deregister descriptor }

/-- An adapter in front of a dispatcher, with the arena of its cache registered. -/
def start (dispatcher : Dispatcher) (config : FabricConfig) (link : Link) :
    Except TransferError Adapter := do
  let unregistered : Adapter := {
    dispatcher := dispatcher
    fabric := .create config
    descriptor := ⟨0, 0, []⟩
    buffers := .empty
    link := link
    queue := []
    worker := .free
    lifecycle := .running
    posted := 0
    responses := .empty }
  let (adapter, descriptor) ← unregistered.register .store
  return { adapter with descriptor := descriptor }

/-- Makes a buffer and registers it. -/
def addBuffer (adapter : Adapter) (arena : Arena) :
    Except TransferError (Adapter × Nat × Descriptor) := do
  let number := adapter.buffers.size
  let added := { adapter with buffers := adapter.buffers.insert number arena }
  let (registered, descriptor) ← added.register (.buffer number)
  return (registered, number, descriptor)

/-- Writes data to a location over the fabric, unless the link is down. -/
def write (adapter : Adapter) (data : ByteArray) (location : Location) :
    Except TransferError Adapter := do
  if adapter.link = .failing then throw .linkDown
  let (fabric, holder, arena) ← adapter.fabric.write adapter.arenaOf data location
  return setArena { adapter with fabric := fabric } arena holder

/-- Accepts a connection. -/
def connect (adapter : Adapter) : Adapter × Connection :=
  let (dispatcher, connection) := adapter.dispatcher.openConnection .rdma
  ({ adapter with dispatcher := dispatcher }, connection)

/-! ## Serving -/

/-- Leaves the response to a request under its ticket. -/
def answer (adapter : Adapter) (ticket : Nat) (response : Response) : Adapter :=
  { adapter with responses := adapter.responses.insert ticket response }

/-- Ends a get with the outcome of its delivery. -/
def settle (adapter : Adapter) (ticket : Nat) (connection : Connection) (request : Request)
    (handle : Handle) (delivered : Delivered) : Adapter :=
  let (dispatcher, response) := adapter.dispatcher.complete connection request handle delivered
  answer { adapter with dispatcher := dispatcher, worker := .free } ticket response

/-- Where the value behind a handle is to be written, and its bytes. -/
def prepare (adapter : Adapter) (handle : Handle) (request : Request) :
    Except CacheError (Location × ByteArray) := do
  match request.location with
  | none => throw (.invalidSize .missingWindow)
  | some location =>
      if location.length.toNat < handle.size then
        throw (.invalidSize (.windowLength handle.size location.length.toNat))
      let data ← adapter.dispatcher.cache.read handle
      return (location, data)

/-- Writes the value of a get and ends the get, unless the write would go into the arena
that the value is read from. -/
def transfer (adapter : Adapter) (get : PendingGet) : Adapter :=
  match adapter.write get.data get.location with
  | .error error =>
      adapter.settle get.ticket get.connection get.request get.handle
        (.error (.internal (.transfer error)))
  | .ok written =>
      match adapter.fabric.target get.data.size get.location with
      | .ok .store => { adapter with worker := .stuck get }
      | _ => written.settle get.ticket get.connection get.request get.handle (.ok none)

/-- Serves one piece of work as far as the link lets it. -/
def serve (adapter : Adapter) : Work → Adapter
  | .disconnect connection =>
      { adapter with dispatcher := (adapter.dispatcher.disconnect connection).1 }
  | .request ticket connection request =>
      match adapter.dispatcher.start connection request with
      | (dispatcher, .answered response) =>
          answer { adapter with dispatcher := dispatcher } ticket response
      | (dispatcher, .delivering handle) =>
          let leased := { adapter with dispatcher := dispatcher }
          match leased.prepare handle request with
          | .error error => leased.settle ticket connection request handle (.error error)
          | .ok (location, data) =>
              let get : PendingGet := ⟨ticket, connection, request, handle, location, data⟩
              if leased.link = .holding then { leased with worker := .held get }
              else leased.transfer get

/-- Serves work in order until the worker stands still, and leaves the rest in the queue. -/
def drain : List Work → Adapter → Adapter
  | [], adapter => { adapter with queue := [] }
  | work :: rest, adapter =>
      let served := adapter.serve work
      if served.worker = .free then drain rest served else { served with queue := rest }

/-- Serves the queue if the worker is free, and then stops if that was asked for. -/
def advance (adapter : Adapter) : Adapter :=
  if adapter.worker = .free then
    let served := drain adapter.queue adapter
    if served.worker = .free ∧ served.lifecycle = .stopping then
      { served.deregister served.descriptor with lifecycle := .stopped }
    else served
  else adapter

/-! ## What clients and the owner do -/

/-- Puts work into the queue. A stopped adapter takes none. -/
def enqueue (adapter : Adapter) (work : Work) : Option Adapter :=
  if adapter.lifecycle = .stopped then none
  else some (advance { adapter with queue := adapter.queue ++ [work] })

/-- Posts a request and gives the ticket under which its response will be left. -/
def post (adapter : Adapter) (connection : Connection) (request : Request) :
    Option (Adapter × Nat) :=
  let ticket := adapter.posted
  (enqueue { adapter with posted := ticket + 1 } (.request ticket connection request)).map
    fun next => (next, ticket)

/-- Takes the response that has been left under a ticket. -/
def takeResponse (adapter : Adapter) (ticket : Nat) : Option (Adapter × Response) :=
  (adapter.responses.find? ticket).map fun response =>
    ({ adapter with responses := adapter.responses.erase ticket }, response)

/-- Announces that a connection is gone. A stopped adapter does not hear it. -/
def hangUp (adapter : Adapter) (connection : Connection) : Adapter :=
  (adapter.enqueue (.disconnect connection)).getD adapter

/-- Changes the link. A write that was held back goes on if the new link lets it. -/
def setLink (adapter : Adapter) (link : Link) : Adapter :=
  let changed := { adapter with link := link }
  match adapter.worker with
  | .held get => if link = .holding then changed else advance (changed.transfer get)
  | _ => changed

/-- Serves what is in the queue, ends the registration of the arena and takes no more work. -/
def shutDown (adapter : Adapter) : Adapter :=
  if adapter.lifecycle = .running then advance { adapter with lifecycle := .stopping }
  else adapter

end Adapter

end LeaseCache.Remote
