import LeaseCache.Message
import LeaseCache.Stats
import LeaseCache.Table
import LeaseCache.Wire.Frame

/-!
# The stream client

A client sends the requests of many calls over one connection and gives each
response to the call that waits for its number. The client numbers its own
requests from zero; a caller may choose the number of a request too. A call that
waits under a number fails when another call takes the number, and all waiting
calls fail when the connection ends.
-/

set_option autoImplicit false

namespace LeaseCache.Stream

/-- Why a call fails. -/
inductive ClientError where
  | closed
  | closedEarly (request : UInt64)
  | timedOut (request : UInt64)
  | unsendable (error : Wire.FrameError)
  | refused (operation : Operation) (response : Response)
  | statsRefused (response : Response)
  | statsMissing
  | statsMalformed
  deriving DecidableEq

/-- The text of a failed call. -/
def ClientError.message : ClientError → String
  | .closed => "connection closed"
  | .closedEarly request =>
      s!"connection closed before response to request {request.toNat}"
  | .timedOut request => s!"request {request.toNat} timed out"
  | .unsendable error => error.message
  | .refused operation response => response.refusal operation
  | .statsRefused response => "STATS failed: " ++ response.message
  | .statsMissing => "STATS response without payload"
  | .statsMalformed => "STATS response cannot be read"

/-- What has become of a call. -/
abbrev CallResult := Except ClientError Response

/-- A client: the calls that wait, by request number, and what has become of the others.
Calls are numbered in the order in which they are made. -/
structure Client where
  nextRequest : UInt64
  calls : Nat
  waiting : Table UInt64 Nat
  results : Table Nat CallResult
  connected : Bool

namespace Client

/-- A client with a connection, before its first call. -/
def fresh : Client where
  nextRequest := 0
  calls := 0
  waiting := .empty
  results := .empty
  connected := true

/-- The next request number. -/
def takeId (client : Client) : UInt64 × Client :=
  (client.nextRequest, { client with nextRequest := client.nextRequest + 1 })

/-- Ends a call. -/
def finish (client : Client) (call : Nat) (result : CallResult) : Client :=
  { client with results := client.results.insert call result }

/-- Fails the call that waits under a number, if there is one. -/
def fail (client : Client) (id : UInt64) (error : ClientError) : Client :=
  match client.waiting.find? id with
  | some call => finish { client with waiting := client.waiting.erase id } call (.error error)
  | none => client

/-- Makes a call, and gives its number and the frame to be sent for it. -/
def issue (client : Client) (request : Request) : Client × Nat × Option ByteArray :=
  let call := client.calls
  let displaced := fail { client with calls := call + 1 } request.id (.closedEarly request.id)
  if client.connected then
    match Wire.writeFrame Wire.requests request with
    | .ok frame =>
        ({ displaced with waiting := displaced.waiting.insert request.id call }, call, some frame)
    | .error error => (displaced.finish call (.error (.unsendable error)), call, none)
  else (displaced.finish call (.error .closed), call, none)

/-- Gives a response to the call that waits for it. A response that no call waits for is
dropped. -/
def receive (client : Client) (response : Response) : Client :=
  match client.waiting.find? response.id with
  | some call =>
      finish { client with waiting := client.waiting.erase response.id } call (.ok response)
  | none => client

/-- Gives up the call that waits under a number. -/
def expire (client : Client) (id : UInt64) : Client := client.fail id (.timedOut id)

/-- Ends the connection. -/
def close (client : Client) : Client :=
  let failed := client.waiting.entries.foldl
    (fun client (id, call) => client.finish call (.error (.closedEarly id))) client
  { failed with waiting := .empty, connected := false }

/-- Takes the frames that have arrived. After a bad frame the connection is of no use. -/
def receiveStream (client : Client) (stream : ByteArray) : Client :=
  let (responses, stop) := Wire.readFrames Wire.responses stream
  let received := responses.foldl receive client
  if stop.isSome then received.close else received

end Client

/-! ## What a response means to its caller -/

/-- The value that a get has got. -/
def valueOf (response : Response) : Except ClientError ByteArray :=
  if response.status = .ok then .ok (response.payload.getD .empty)
  else .error (.refused .get response)

/-- That a put has stored its value. -/
def storedOf (response : Response) : Except ClientError Unit :=
  if response.status = .ok then .ok () else .error (.refused .put response)

/-- Whether the key of an operation was there. -/
def presenceOf (operation : Operation) (response : Response) : Except ClientError Bool :=
  match response.status with
  | .ok => .ok true
  | .notFound => .ok false
  | _ => .error (.refused operation response)

/-- The size of a value, if it is there. -/
def sizeOf (response : Response) : Except ClientError (Option UInt64) :=
  match response.status with
  | .ok => .ok (some response.length)
  | .notFound => .ok none
  | _ => .error (.refused .size response)

/-- The statistics that a response carries. -/
def statsOf (response : Response) : Except ClientError CacheStats :=
  if response.status = .ok then
    match response.payload with
    | none => .error .statsMissing
    | some payload =>
        match CacheStats.ofBytes? payload with
        | some stats => .ok stats
        | none => .error .statsMalformed
  else .error (.statsRefused response)

/-- Whether the other side answers. -/
def aliveOf (response : Response) : Bool := response.status = .ok

end LeaseCache.Stream
