import LeaseCache.Error

/-!
# Requests and responses

The records are the same for every transport. A request names an operation and
a key; a put carries the value, and a get over a one-sided transport says where
the value is to be written. A response answers under the number of its request.
-/

set_option autoImplicit false

namespace LeaseCache

/-- What a request asks for. -/
inductive Operation where
  | get
  | put
  | delete
  | exists
  | size
  | stats
  | ping
  deriving DecidableEq, Repr

/-- The name of an operation in messages. -/
def Operation.name : Operation → String
  | .get => "GET"
  | .put => "PUT"
  | .delete => "DELETE"
  | .exists => "EXISTS"
  | .size => "SIZE"
  | .stats => "STATS"
  | .ping => "PING"

/-- The outcome of a request. -/
inductive Status where
  | ok
  | notFound
  | outOfSpace
  | invalidSize
  | conflict
  | internalError
  deriving DecidableEq, Repr

/-- The name of a status in messages. -/
def Status.name : Status → String
  | .ok => "Ok"
  | .notFound => "NotFound"
  | .outOfSpace => "OutOfSpace"
  | .invalidSize => "InvalidSize"
  | .conflict => "Conflict"
  | .internalError => "InternalError"

/-- The status of an error. -/
def CacheError.status : CacheError → Status
  | .notFound => .notFound
  | .invalidSize _ => .invalidSize
  | .outOfSpace _ => .outOfSpace
  | .conflict => .conflict
  | .internal _ => .internalError

/-- The address of a domain and the key under which it reaches a memory. -/
structure RemoteKey where
  address : ByteArray
  key : UInt64
  deriving DecidableEq

/-- A registered memory: its base address, its length and a remote key for each domain. -/
structure Descriptor where
  base : UInt64
  length : UInt64
  remoteKeys : List RemoteKey
  deriving DecidableEq

/-- The key by which writes reach the memory. -/
def Descriptor.firstKey? (descriptor : Descriptor) : Option UInt64 :=
  descriptor.remoteKeys.head?.map RemoteKey.key

/-- A place in a registered memory: an offset and the number of bytes there. -/
structure Location where
  node : UInt32
  descriptor : Descriptor
  offset : UInt64
  length : UInt64
  deriving DecidableEq

/-- A request under a number chosen by the client. -/
structure Request where
  id : UInt64
  operation : Operation
  key : Key
  payload : Option ByteArray := none
  location : Option Location := none
  deriving DecidableEq

/-- A response under the number of its request. The length is that of the value, also when
the value does not travel with the response. -/
structure Response where
  id : UInt64
  status : Status
  payload : Option ByteArray
  length : UInt64
  message : String
  deriving DecidableEq

namespace Response

/-- Success with nothing to tell. -/
def ok (id : UInt64) : Response := ⟨id, .ok, none, 0, ""⟩

/-- Success with a value. -/
def withPayload (id : UInt64) (payload : ByteArray) : Response :=
  ⟨id, .ok, some payload, payload.size.toUInt64, ""⟩

/-- Success with the length of a value. -/
def withLength (id length : UInt64) : Response := ⟨id, .ok, none, length, ""⟩

/-- Failure, with the status and the text of the error. -/
def failure (id : UInt64) (error : CacheError) : Response :=
  ⟨id, error.status, none, 0, error.message⟩

/-- The text by which a client tells that an operation failed. -/
def refusal (response : Response) (operation : Operation) : String :=
  operation.name ++ " failed (" ++ response.status.name ++ "): " ++ response.message

/-- The response to a request that came out as given. -/
def ofOutcome (id : UInt64) : Except CacheError Response → Response
  | .ok response => response
  | .error error => failure id error

end Response

end LeaseCache
