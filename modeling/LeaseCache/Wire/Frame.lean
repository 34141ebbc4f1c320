import LeaseCache.Limits
import LeaseCache.Wire.Record

/-!
# Frames

A message travels as a frame: the length of its record in four bytes, most
significant first, and the record. Reading a frame off the front of a stream
ends in a message, in the end of the stream, or in an error after which nothing
more can be read. Bytes of a body behind its record are ignored.
-/

set_option autoImplicit false

namespace LeaseCache.Wire

/-- Why a frame cannot be written or read. -/
inductive FrameError where
  | tooLong (length : Nat)
  | tooLongIncoming (length : Nat)
  | truncated
  | undecodable (error : DecodeError)
  deriving DecidableEq, Repr

/-- The text of the errors that this format has a text for. -/
def FrameError.message : FrameError → String
  | .tooLong length => s!"frame of {length} bytes exceeds limit of {maxFrameLength}"
  | .tooLongIncoming length =>
      s!"incoming frame of {length} bytes exceeds limit of {maxFrameLength}"
  | .truncated => "unexpected end of stream"
  | .undecodable .truncated => "body ends inside the record"
  | .undecodable .invalidText => "text is not UTF-8"
  | .undecodable .invalidTag => "optional field is neither absent nor present"
  | .undecodable .invalidValue => "value out of range"

/-- A kind of message: how its records are written and read. -/
structure Format (α : Type) where
  encode : α → ByteArray
  decode : Decoder α

/-- The records of requests. -/
def requests : Format Request := ⟨encodeRequest, takeRequest⟩

/-- The records of responses. -/
def responses : Format Response := ⟨encodeResponse, takeResponse⟩

variable {α : Type}

/-- The frame around a body. -/
def frameBody (body : ByteArray) : Except FrameError ByteArray :=
  if maxFrameLength < body.size then .error (.tooLong body.size)
  else .ok ((Bytes.bigEndian 4 body.size).toByteArray ++ body)

/-- The frame of a message. -/
def writeFrame (format : Format α) (message : α) : Except FrameError ByteArray :=
  frameBody (format.encode message)

/-- Reads one frame off a stream, and leaves the rest. A stream that ends before the four
bytes of a length has no further frame. -/
def readFrame (format : Format α) (stream : ByteArray) :
    Except FrameError (Option (α × ByteArray)) :=
  if stream.size < 4 then .ok none
  else
    let length := Bytes.ofBigEndian (Bytes.toList (stream.extract 0 4))
    let rest := stream.extract 4 stream.size
    if maxFrameLength < length then .error (.tooLongIncoming length)
    else if rest.size < length then .error .truncated
    else match format.decode (rest.extract 0 length) with
      | .error error => .error (.undecodable error)
      | .ok (message, _) => .ok (some (message, rest.extract length rest.size))

theorem size_rest_lt_of_readFrame {format : Format α} {stream rest : ByteArray} {message : α}
    (read : readFrame format stream = .ok (some (message, rest))) : rest.size < stream.size := by
  unfold readFrame at read
  split at read
  next => simp at read
  next long =>
    simp only at read
    split at read
    next => simp at read
    next =>
      split at read
      next => simp at read
      next =>
        split at read
        next => simp at read
        next =>
          simp only [Except.ok.injEq, Option.some.injEq, Prod.mk.injEq] at read
          rw [← read.2]
          simp only [ByteArray.size_extract]
          omega

/-- All messages of a stream up to its end or the first error. -/
def readFrames (format : Format α) (stream : ByteArray) : List α × Option FrameError :=
  match _read : readFrame format stream with
  | .error error => ([], some error)
  | .ok none => ([], none)
  | .ok (some (message, rest)) =>
      let (messages, stop) := readFrames format rest
      (message :: messages, stop)
termination_by stream.size
decreasing_by exact size_rest_lt_of_readFrame _read

end LeaseCache.Wire
