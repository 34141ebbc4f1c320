import LeaseCache.Limits
import LeaseCache.Proofs.Wire.Parts

/-!
# Reading back records

The record of a request or a response is read back as the same request or
response, field by field, if it is short enough for a frame (`reads_request`,
`reads_response`). That bound is what makes every length in it fit its width and
every room that is asked for addressable.
-/

set_option autoImplicit false

namespace LeaseCache.Wire

/-- A length that a frame allows fits the width of lengths. -/
theorem lt_of_le_maxFrameLength {length : Nat} (short : length ≤ maxFrameLength) :
    length < 256 ^ 8 :=
  Nat.lt_of_le_of_lt short (by decide)

/-- As many elements as a frame can have are few. -/
theorem few_of_le_maxFrameLength {count : Nat} (short : count ≤ maxFrameLength) :
    count ≤ 2 ^ 30 :=
  Nat.le_trans short (by decide)

theorem reads_key {key : Key} (short : key.length ≤ maxFrameLength) :
    Reads takeKey (encodeString key.bytes.toByteArray) key := by
  intro rest
  have size : key.bytes.toByteArray.size = key.length := List.size_toByteArray
  have length : Reads (takeNumber 8) (encodeNumber 8 key.length) key.length :=
    reads_number (lt_of_le_maxFrameLength short)
  have taken := reads_bytes key.bytes.toByteArray rest
  rw [size] at taken
  rw [encodeString, ByteArray.append_assoc, size, takeKey, length]
  simp only [bind, Except.bind, pure, Except.pure, taken, Bytes.toList, List.data_toByteArray,
    exceedsMemory_eq_false (few_of_le_maxFrameLength short) (by decide : 1 ≤ 32),
    Bool.false_eq_true, if_false]

theorem size_encodeRemoteKey (remote : RemoteKey) :
    (encodeRemoteKey remote).size = 16 + remote.address.size := by
  rw [encodeRemoteKey, ByteArray.size_append, size_encodeString, size_encodeWord]
  omega

theorem reads_remoteKey {remote : RemoteKey} (short : remote.address.size ≤ maxFrameLength) :
    Reads takeRemoteKey (encodeRemoteKey remote) remote := by
  intro rest
  have address := reads_string (lt_of_le_maxFrameLength short)
  rw [encodeRemoteKey, ByteArray.append_assoc, takeRemoteKey, address]
  simp only [bind, Except.bind, pure, Except.pure, reads_word remote.key rest]

/-- The remote keys of a location are as long as the location at most. -/
theorem size_remoteKeys_le (location : Location) :
    (encodeList encodeRemoteKey location.descriptor.remoteKeys).size ≤
      (encodeLocation location).size := by
  simp only [encodeLocation, ByteArray.size_append]
  omega

theorem reads_location {location : Location}
    (short : (encodeLocation location).size ≤ maxFrameLength) :
    Reads takeLocation (encodeLocation location) location := by
  intro rest
  have remotes := Nat.le_trans (size_remoteKeys_le location) short
  have counted : location.descriptor.remoteKeys.length ≤ maxFrameLength := by
    have each : location.descriptor.remoteKeys.length * 16 ≤
        (encodeList encodeRemoteKey location.descriptor.remoteKeys).size :=
      length_mul_le_size_encodeList fun remote _ => by
        rw [size_encodeRemoteKey]
        exact Nat.le_add_right _ _
    omega
  have keys : Reads (takeList takeRemoteKey location.descriptor.remoteKeys.length)
      (encodeList encodeRemoteKey location.descriptor.remoteKeys)
      location.descriptor.remoteKeys := by
    apply reads_list
    intro remote member
    have part : (encodeRemoteKey remote).size ≤ maxFrameLength :=
      Nat.le_trans (size_le_size_encodeList member) remotes
    rw [size_encodeRemoteKey] at part
    exact reads_remoteKey (Nat.le_trans (Nat.le_add_left _ _) part)
  have node : Reads (takeNumber 4) (encodeNumber 4 location.node.toNat) location.node.toNat :=
    reads_number location.node.toNat_lt
  have count : Reads (takeNumber 8) (encodeNumber 8 location.descriptor.remoteKeys.length)
      location.descriptor.remoteKeys.length :=
    reads_number (lt_of_le_maxFrameLength counted)
  have addressable := exceedsMemory_eq_false (few_of_le_maxFrameLength counted)
    (by decide : remoteKeyFootprint ≤ 32)
  simp only [encodeLocation, ByteArray.append_assoc, takeLocation, node _, reads_word _ _,
    count _, keys _, addressable, bind, Except.bind, pure, Except.pure, Bool.false_eq_true,
    if_false, UInt32.ofNat_toNat]

theorem reads_text {text : String} (short : text.toUTF8.size ≤ maxFrameLength) :
    Reads takeText (encodeString text.toUTF8) text := by
  intro rest
  have content := reads_string (lt_of_le_maxFrameLength short) rest
  have valid : String.fromUTF8? text.toUTF8 = some text := dif_pos text.isValidUTF8
  rw [takeText, content]
  simp only [bind, Except.bind, pure, Except.pure, valid]

/-- An optional byte string is read if its bytes are short enough for a frame. -/
theorem reads_optionString {option : Option ByteArray}
    (short : (encodeOption encodeString option).size ≤ maxFrameLength) :
    Reads (takeOption takeString) (encodeOption encodeString option) option := by
  apply reads_option
  intro value present
  have part : (encodeString value).size ≤ (encodeOption encodeString option).size :=
    size_le_size_encodeOption present
  rw [size_encodeString] at part
  exact reads_string (lt_of_le_maxFrameLength (by omega))

/-- **A request is read back from its record**, if the record is short enough for a frame. -/
theorem reads_request {request : Request}
    (short : (encodeRequest request).size ≤ maxFrameLength) :
    Reads takeRequest (encodeRequest request) request := by
  intro rest
  simp only [encodeRequest, ByteArray.size_append, size_encodeString, List.size_toByteArray] at short
  have key : Reads takeKey (encodeString request.key.bytes.toByteArray) request.key :=
    reads_key (by unfold Key.length; omega)
  have payload : Reads (takeOption takeString) (encodeOption encodeString request.payload)
      request.payload := reads_optionString (by omega)
  have location : Reads (takeOption takeLocation) (encodeOption encodeLocation request.location)
      request.location := by
    apply reads_option
    intro value present
    have part : (encodeLocation value).size ≤
        (encodeOption encodeLocation request.location).size := size_le_size_encodeOption present
    exact reads_location (by omega)
  simp only [encodeRequest, ByteArray.append_assoc, takeRequest, reads_word _ _,
    reads_operation _ _, key _, payload _, location _, bind, Except.bind, pure, Except.pure]

/-- **A response is read back from its record**, if the record is short enough for a frame. -/
theorem reads_response {response : Response}
    (short : (encodeResponse response).size ≤ maxFrameLength) :
    Reads takeResponse (encodeResponse response) response := by
  intro rest
  simp only [encodeResponse, ByteArray.size_append, size_encodeString] at short
  have message : Reads takeText (encodeString response.message.toUTF8) response.message :=
    reads_text (by omega)
  have payload : Reads (takeOption takeString) (encodeOption encodeString response.payload)
      response.payload := reads_optionString (by omega)
  simp only [encodeResponse, ByteArray.append_assoc, takeResponse, reads_word _ _,
    reads_status _ _, payload _, message _, bind, Except.bind, pure, Except.pure]

end LeaseCache.Wire
