import LeaseCache.Stream.Client
import LeaseCache.Stream.Service

/-!
# A client and its service

A session joins a client to the service at the other end of its connection.
Each call is sent, answered and taken in before the next one is made.
-/

set_option autoImplicit false

namespace LeaseCache.Stream

/-- A client, the dispatcher that answers it, and their connection. -/
structure Session where
  client : Client
  dispatcher : Dispatcher
  connection : Connection

namespace Session

/-- Connects a new client to a dispatcher. -/
def start (dispatcher : Dispatcher) : Session :=
  let (opened, connection) := dispatcher.openConnection .tcp
  ⟨.fresh, opened, connection⟩

/-- Sends a request and takes what has become of the call. -/
def call (session : Session) (request : Request) : Session × CallResult :=
  let (issued, number, frame) := session.client.issue request
  let (dispatcher, frames) :=
    serveStream session.dispatcher session.connection (frame.getD .empty)
  let client := frames.foldl Client.receiveStream issued
  ({ session with client := client, dispatcher := dispatcher },
    (client.results.find? number).getD (.error (.timedOut request.id)))

/-- Sends a request under the next number. -/
def send (session : Session) (operation : Operation) (key : Key) (payload : Option ByteArray) :
    Session × CallResult :=
  let (id, client) := session.client.takeId
  call { session with client := client }
    { id := id, operation := operation, key := key, payload := payload }

/-- Gets the value of a key. -/
def get (session : Session) (key : Key) : Session × Except ClientError ByteArray :=
  let (next, result) := session.send .get key none
  (next, result.bind valueOf)

/-- Puts a value under a key. -/
def put (session : Session) (key : Key) (value : ByteArray) : Session × Except ClientError Unit :=
  let (next, result) := session.send .put key (some value)
  (next, result.bind storedOf)

/-- Deletes a key and tells whether it was there. -/
def delete (session : Session) (key : Key) : Session × Except ClientError Bool :=
  let (next, result) := session.send .delete key none
  (next, result.bind (presenceOf .delete))

/-- Tells whether a key is there. -/
def contains (session : Session) (key : Key) : Session × Except ClientError Bool :=
  let (next, result) := session.send .exists key none
  (next, result.bind (presenceOf .exists))

/-- The size of a key's value, if it is there. -/
def size (session : Session) (key : Key) : Session × Except ClientError (Option UInt64) :=
  let (next, result) := session.send .size key none
  (next, result.bind sizeOf)

/-- The statistics of the cache. -/
def stats (session : Session) : Session × Except ClientError CacheStats :=
  let (next, result) := session.send .stats ⟨[]⟩ none
  (next, result.bind statsOf)

/-- Whether the service answers. -/
def ping (session : Session) : Session × Except ClientError Bool :=
  let (next, result) := session.send .ping ⟨[]⟩ none
  (next, result.map aliveOf)

end Session

end LeaseCache.Stream
