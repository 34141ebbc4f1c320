import LeaseCache.Remote.Adapter

/-!
# The remote client

A remote client has a buffer of its own on the fabric. For each get it reserves
a window of the buffer, and the adapter writes the value into the window. A get
that is not answered in time gives up, but its window may still be written into,
so the window stays reserved until the response to its request has been left.

Every function here gives the new adapter and the new client, because a client
and its adapter work on the same memories.
-/

set_option autoImplicit false

namespace LeaseCache.Remote

/-- Settings of a remote client: its number, the size of its buffer and that of a window. -/
structure ClientConfig where
  node : UInt32 := 1
  bufferSize : Nat := 64 * 1024 * 1024
  windowSize : Nat := 1024 * 1024
  deriving DecidableEq, Repr

/-- The time in milliseconds after which a request is given up, if no other is set. -/
def defaultTimeout : Nat := 30000

/-- The window of a get that was given up, and the ticket of its request. -/
structure AbandonedGet where
  window : Region
  ticket : Nat
  deriving DecidableEq, Repr

/-- A client: its connection, its buffer and the gets it has given up. -/
structure Client where
  config : ClientConfig
  connection : Connection
  buffer : Nat
  descriptor : Descriptor
  nextRequest : UInt64
  abandoned : List AbandonedGet
  deriving DecidableEq

/-- Why a client's operation fails. A client without addresses for its buffer breaks off. -/
inductive ClientError where
  | buffer (error : CacheError)
  | unaddressable
  | registration (error : TransferError)
  | adapterStopped
  | getTimedOut (request : Nat)
  | timedOut (request : Nat)
  | refused (operation : Operation) (response : Response)
  deriving DecidableEq

/-- The text of a client's error. -/
def ClientError.message : ClientError → String
  | .buffer error => error.message
  | .unaddressable => LeaseCache.unaddressable
  | .registration error => error.message
  | .adapterStopped => "RDMA adapter is shut down"
  | .getTimedOut request => s!"request {request} did not complete: timed out"
  | .timedOut request => s!"request {request} did not complete: timed out waiting on receive operation"
  | .refused operation response => response.refusal operation

/-- The error of a client whose buffer is not made. -/
def ClientError.ofCreationError : CreationError → ClientError
  | .refused error => .buffer error
  | .unaddressable => .unaddressable

namespace Adapter

/-- Puts a request behind the queue, before anything of it is served, and gives its ticket. A
stopped adapter takes none. -/
def submit (adapter : Adapter) (connection : Connection) (request : Request) :
    Option (Adapter × Nat) :=
  if adapter.lifecycle = .stopped then none
  else
    let ticket := adapter.posted
    some ({ adapter with
      queue := adapter.queue ++ [.request ticket connection request]
      posted := ticket + 1 }, ticket)

/-- A request is posted by submitting it and serving the queue. -/
theorem post_eq_submit (adapter : Adapter) (connection : Connection) (request : Request) :
    adapter.post connection request =
      (adapter.submit connection request).map fun (next, ticket) => (next.advance, ticket) := by
  unfold post submit enqueue
  dsimp only
  split <;> rfl

/-- Takes the response to a request, or gives up. -/
def collect (adapter : Adapter) (id : UInt64) (ticket : Nat) :
    Adapter × Except ClientError Response :=
  match adapter.takeResponse ticket with
  | some (taken, response) => (taken, .ok response)
  | none => (adapter, .error (.timedOut id.toNat))

/-- Submits a request and takes the response, if it is there before the client gives up. -/
def call (adapter : Adapter) (connection : Connection) (request : Request) :
    Adapter × Except ClientError Response :=
  match adapter.submit connection request with
  | none => (adapter, .error .adapterStopped)
  | some (next, ticket) => next.advance.collect request.id ticket

end Adapter

/-- A get that has been asked for: its number, its key, its window and the ticket of its
request. -/
structure OpenGet where
  id : UInt64
  key : Key
  window : Region
  ticket : Nat
  deriving DecidableEq

namespace Client

/-- Alignment of the windows in a buffer. -/
def windowAlignment : Nat := 64

/-- Makes and registers a buffer and connects to an adapter. -/
def connect (adapter : Adapter) (config : ClientConfig) :
    Except ClientError (Adapter × Client) := do
  let arena ←
    (Arena.create config.bufferSize windowAlignment).mapError ClientError.ofCreationError
  let (registered, buffer, descriptor) ←
    (adapter.addBuffer arena).mapError ClientError.registration
  let (connected, connection) := registered.connect
  return (connected, {
    config := config
    connection := connection
    buffer := buffer
    descriptor := descriptor
    nextRequest := 0
    abandoned := [] })

/-- Takes the buffer off the fabric and the client off the adapter. -/
def disconnect (client : Client) (adapter : Adapter) : Adapter :=
  (adapter.deregister client.descriptor).hangUp client.connection

/-- The arena of the client's buffer. -/
def arena (client : Client) (adapter : Adapter) : Arena := adapter.arenaOf (.buffer client.buffer)

/-- Gives a window back to the buffer. -/
def freeWindow (client : Client) (adapter : Adapter) (window : Region) :
    Except ClientError Adapter :=
  match (client.arena adapter).free window with
  | .ok arena => .ok (adapter.setArena arena (.buffer client.buffer))
  | .error fault => .error (.buffer (.internal (.arena fault)))

/-- Gives the window of an abandoned get back if its response has been left. -/
def reclaimWindow (client : Client) (adapter : Adapter) (get : AbandonedGet) : Adapter :=
  match adapter.takeResponse get.ticket with
  | some (taken, _) => ((client.freeWindow taken get.window).toOption).getD taken
  | none => adapter

/-- Gives the windows of all abandoned gets back whose responses have been left since. -/
def reclaim (client : Client) (adapter : Adapter) : Adapter × Client :=
  (client.abandoned.foldl client.reclaimWindow adapter,
    { client with
      abandoned := client.abandoned.filter fun get => !adapter.responses.contains get.ticket })

/-- The next request number. -/
def takeId (client : Client) : UInt64 × Client :=
  (client.nextRequest, { client with nextRequest := client.nextRequest + 1 })

/-- The value that a response says was written into a window. -/
def receive (client : Client) (adapter : Adapter) (window : Region) (response : Response) :
    Except ClientError ByteArray :=
  if response.status = .ok then
    match (client.arena adapter).read ⟨window.offset, response.length.toNat⟩ with
    | .ok value => .ok value
    | .error fault => .error (.buffer (.internal (.arena fault)))
  else .error (.refused .get response)

/-- Where a window of the buffer is on the fabric. -/
def locate (client : Client) (window : Region) : Location where
  node := client.config.node
  descriptor := client.descriptor
  offset := window.offset.toUInt64
  length := window.length.toUInt64

/-- Ends a get with an outcome and gives its window back. -/
def endGet {α : Type} (client : Client) (adapter : Adapter) (window : Region)
    (outcome : Except ClientError α) : Adapter × Client × Except ClientError α :=
  match client.freeWindow adapter window with
  | .ok freed => (freed, client, outcome)
  | .error error => (adapter, client, .error error)

/-- Asks for a value: reserves a window of the buffer and submits the request of the get. -/
def ask (client : Client) (adapter : Adapter) (key : Key) :
    Adapter × Client × Except ClientError OpenGet :=
  let (adapter, client) := client.reclaim adapter
  match (client.arena adapter).allocate client.config.windowSize with
  | .error error => (adapter, client, .error (.buffer error))
  | .ok (window, arena) =>
      let adapter := adapter.setArena arena (.buffer client.buffer)
      let (id, client) := client.takeId
      let request : Request :=
        { id := id, operation := .get, key := key, location := some (client.locate window) }
      match adapter.submit client.connection request with
      | none => client.endGet adapter window (.error .adapterStopped)
      | some (adapter, ticket) => (adapter, client, .ok ⟨id, key, window, ticket⟩)

/-- Takes the value of a get out of its window, or gives the get up. -/
def settle (client : Client) (adapter : Adapter) (get : OpenGet) :
    Adapter × Client × Except ClientError ByteArray :=
  match adapter.takeResponse get.ticket with
  | some (adapter, response) =>
      client.endGet adapter get.window (client.receive adapter get.window response)
  | none =>
      (adapter, { client with abandoned := client.abandoned ++ [⟨get.window, get.ticket⟩] },
        .error (.getTimedOut get.id.toNat))

/-- Gets a value through a window of the buffer. -/
def get (client : Client) (adapter : Adapter) (key : Key) :
    Adapter × Client × Except ClientError ByteArray :=
  match client.ask adapter key with
  | (adapter, client, .error error) => (adapter, client, .error error)
  | (adapter, client, .ok opened) => client.settle adapter.advance opened

/-- Sends a request under the next number. -/
def send (client : Client) (adapter : Adapter) (operation : Operation) (key : Key)
    (payload : Option ByteArray) : Adapter × Client × Except ClientError Response :=
  let (id, client) := client.takeId
  let (adapter, outcome) := adapter.call client.connection
    { id := id, operation := operation, key := key, payload := payload }
  (adapter, client, outcome)

/-- Puts a value, which travels with the request. -/
def put (client : Client) (adapter : Adapter) (key : Key) (value : ByteArray) :
    Adapter × Client × Except ClientError Unit :=
  let (adapter, client, outcome) := client.send adapter .put key (some value)
  (adapter, client, do
    let response ← outcome
    if response.status = .ok then return () else throw (.refused .put response))

/-- Deletes a value and tells whether there was one. -/
def delete (client : Client) (adapter : Adapter) (key : Key) :
    Adapter × Client × Except ClientError Bool :=
  let (adapter, client, outcome) := client.send adapter .delete key none
  (adapter, client, do
    let response ← outcome
    match response.status with
    | .ok => return true
    | .notFound => return false
    | _ => throw (.refused .delete response))

/-- Sends a request without a payload and gives the response as it is. -/
def call (client : Client) (adapter : Adapter) (operation : Operation) (key : Key) :
    Adapter × Client × Except ClientError Response :=
  client.send adapter operation key none

end Client

end LeaseCache.Remote
