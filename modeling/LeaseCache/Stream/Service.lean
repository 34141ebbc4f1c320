import LeaseCache.Dispatch
import LeaseCache.Wire.Frame

/-!
# Serving a stream

A stream carries the frames of requests in one direction and the frames of
responses in the other. The requests of a stream are answered one after the
other, values travel inside the responses, and the stream is read up to its end
or its first bad frame. After that the connection is closed and gives back what
it still holds.
-/

set_option autoImplicit false

namespace LeaseCache.Stream

/-- The response in place of one that is too long for a frame. -/
def unencodable (id : UInt64) (error : Wire.FrameError) : Response :=
  Response.failure id
    (.internal (.stated ("response could not be encoded: " ++ error.message)))

/-- The frame that is sent for a response. -/
def responseFrame (response : Response) : ByteArray :=
  match Wire.writeFrame Wire.responses response with
  | .ok frame => frame
  | .error error =>
      match Wire.writeFrame Wire.responses (unencodable response.id error) with
      | .ok frame => frame
      | .error _ => .empty

/-- Answers requests in order. -/
def serveRequests (connection : Connection) : List Request → Dispatcher → Dispatcher × List Response
  | [], dispatcher => (dispatcher, [])
  | request :: rest, dispatcher =>
      let (answered, response) := dispatcher.dispatch deliverInline connection request
      let (last, responses) := serveRequests connection rest answered
      (last, response :: responses)

/-- Answers the requests at the front of a stream and gives the frames of the responses. -/
def serveStream (dispatcher : Dispatcher) (connection : Connection) (stream : ByteArray) :
    Dispatcher × List ByteArray :=
  let (requests, _) := Wire.readFrames Wire.requests stream
  let (served, responses) := serveRequests connection requests dispatcher
  (served, responses.map responseFrame)

/-- Serves a whole connection: all that is sent on it, up to its end. -/
def serveConnection (dispatcher : Dispatcher) (stream : ByteArray) :
    Dispatcher × List ByteArray :=
  let (opened, connection) := dispatcher.openConnection .tcp
  let (served, frames) := serveStream opened connection stream
  ((served.disconnect connection).1, frames)

end LeaseCache.Stream
