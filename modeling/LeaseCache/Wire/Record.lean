import LeaseCache.Message
import LeaseCache.Wire.Decoder

/-!
# The bytes of requests and responses

Numbers have fixed widths and stand least significant byte first; an operation
or a status is a number of four bytes; an optional field is a byte of zero, or
a byte of one and the value; byte strings and lists follow their length in eight
bytes. `encodeRequest` and `encodeResponse` write records, `takeRequest` and
`takeResponse` read them.
-/

set_option autoImplicit false

namespace LeaseCache.Wire

/-- The numbers of the operations. -/
def operationCode : Operation → Nat
  | .get => 0
  | .put => 1
  | .delete => 2
  | .exists => 3
  | .size => 4
  | .stats => 5
  | .ping => 6

/-- The operation with a number. -/
def operationOfCode? : Nat → Option Operation
  | 0 => some .get
  | 1 => some .put
  | 2 => some .delete
  | 3 => some .exists
  | 4 => some .size
  | 5 => some .stats
  | 6 => some .ping
  | _ => none

/-- The numbers of the statuses. -/
def statusCode : Status → Nat
  | .ok => 0
  | .notFound => 1
  | .outOfSpace => 2
  | .invalidSize => 3
  | .conflict => 4
  | .internalError => 5

/-- The status with a number. -/
def statusOfCode? : Nat → Option Status
  | 0 => some .ok
  | 1 => some .notFound
  | 2 => some .outOfSpace
  | 3 => some .invalidSize
  | 4 => some .conflict
  | 5 => some .internalError
  | _ => none

/-! ## Writing -/

/-- A number of `width` bytes. -/
def encodeNumber (width value : Nat) : ByteArray := (Bytes.littleEndian width value).toByteArray

/-- A number of eight bytes. -/
def encodeWord (value : UInt64) : ByteArray := encodeNumber 8 value.toNat

/-- A byte of zero, or a byte of one and the bytes of the value. -/
def encodeOption {α : Type} (encode : α → ByteArray) : Option α → ByteArray
  | none => encodeNumber 1 0
  | some value => encodeNumber 1 1 ++ encode value

/-- A length and that many bytes. -/
def encodeString (bytes : ByteArray) : ByteArray := encodeNumber 8 bytes.size ++ bytes

/-- The bytes of each value in turn. -/
def encodeList {α : Type} (encode : α → ByteArray) : List α → ByteArray
  | [] => .empty
  | value :: rest => encode value ++ encodeList encode rest

/-- The bytes of a remote key. -/
def encodeRemoteKey (remote : RemoteKey) : ByteArray :=
  encodeString remote.address ++ encodeWord remote.key

/-- The bytes of a location. -/
def encodeLocation (location : Location) : ByteArray :=
  encodeNumber 4 location.node.toNat ++ encodeWord location.descriptor.base ++
    encodeWord location.descriptor.length ++
    encodeNumber 8 location.descriptor.remoteKeys.length ++
    encodeList encodeRemoteKey location.descriptor.remoteKeys ++
    encodeWord location.offset ++ encodeWord location.length

/-- The bytes of a request. -/
def encodeRequest (request : Request) : ByteArray :=
  encodeWord request.id ++ encodeNumber 4 (operationCode request.operation) ++
    encodeString request.key.bytes.toByteArray ++ encodeOption encodeString request.payload ++
    encodeOption encodeLocation request.location

/-- The bytes of a response. -/
def encodeResponse (response : Response) : ByteArray :=
  encodeWord response.id ++ encodeNumber 4 (statusCode response.status) ++
    encodeOption encodeString response.payload ++ encodeWord response.length ++
    encodeString response.message.toUTF8

/-! ## Reading -/

/-- A number of four bytes that names something. -/
def takeCode {α : Type} (ofCode? : Nat → Option α) : Decoder α := fun bytes => do
  let (code, rest) ← takeNumber 4 bytes
  match ofCode? code with
  | some value => return (value, rest)
  | none => throw .invalidValue

/-- The bytes of a key. -/
def takeKey : Decoder Key := fun bytes => do
  let (length, rest) ← takeNumber 8 bytes
  if exceedsMemory length 1 then throw .invalidValue
  let (part, rest) ← takeBytes length rest
  return (⟨Bytes.toList part⟩, rest)

/-- A remote key. -/
def takeRemoteKey : Decoder RemoteKey := fun bytes => do
  let (address, rest) ← takeString bytes
  let (key, rest) ← takeWord rest
  return (⟨address, key⟩, rest)

/-- The room that one remote key takes in a list. -/
def remoteKeyFootprint : Nat := 32

/-- A location. -/
def takeLocation : Decoder Location := fun bytes => do
  let (node, rest) ← takeNumber 4 bytes
  let (base, rest) ← takeWord rest
  let (length, rest) ← takeWord rest
  let (count, rest) ← takeNumber 8 rest
  if exceedsMemory count remoteKeyFootprint then throw .invalidValue
  let (remoteKeys, rest) ← takeList takeRemoteKey count rest
  let (offset, rest) ← takeWord rest
  let (window, rest) ← takeWord rest
  return (⟨UInt32.ofNat node, ⟨base, length, remoteKeys⟩, offset, window⟩, rest)

/-- A request. -/
def takeRequest : Decoder Request := fun bytes => do
  let (id, rest) ← takeWord bytes
  let (operation, rest) ← takeCode operationOfCode? rest
  let (key, rest) ← takeKey rest
  let (payload, rest) ← takeOption takeString rest
  let (location, rest) ← takeOption takeLocation rest
  return ({ id, operation, key, payload, location }, rest)

/-- A text in UTF-8 behind its length. -/
def takeText : Decoder String := fun bytes => do
  let (content, rest) ← takeString bytes
  match String.fromUTF8? content with
  | some text => return (text, rest)
  | none => throw .invalidText

/-- A response. -/
def takeResponse : Decoder Response := fun bytes => do
  let (id, rest) ← takeWord bytes
  let (status, rest) ← takeCode statusOfCode? rest
  let (payload, rest) ← takeOption takeString rest
  let (length, rest) ← takeWord rest
  let (message, rest) ← takeText rest
  return ({ id, status, payload, length, message }, rest)

end LeaseCache.Wire
