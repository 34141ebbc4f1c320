import LeaseCache.Proofs.Wire.Framing

/-!
# What a decoder takes

A decoder is canonical if whatever it takes off the front of a byte string is
exactly what is written for the value that it gives (`Canonical`). Requests and
responses are read by canonical decoders (`canonical_request`,
`canonical_response`). So a request that was read holds no more bytes than there
were to read (`sizes_of_holds`).
-/

set_option autoImplicit false

namespace LeaseCache.Wire

variable {α β : Type} {width count : Nat} {bytes rest part : ByteArray} {decode : Decoder α}
  {encode : α → ByteArray}

/-- What is taken off is what is written for the value. -/
def Canonical (decode : Decoder α) (encode : α → ByteArray) : Prop :=
  ∀ bytes value rest, decode bytes = .ok (value, rest) → bytes = encode value ++ rest

/-- A sequence of two steps succeeds if the first does and the second does with its result. -/
theorem exists_of_bind_ok {first : Except DecodeError α} {next : α → Except DecodeError β}
    {result : β} (done : first >>= next = .ok result) :
    ∃ value, first = .ok value ∧ next value = .ok result := by
  cases first with
  | error error => cases done
  | ok value => exact ⟨value, rfl, done⟩

theorem of_takeBytes (taken : takeBytes count bytes = .ok (part, rest)) :
    part.size = count ∧ bytes = part ++ rest := by
  unfold takeBytes at taken
  split at taken
  · next enough =>
      obtain ⟨rfl, rfl⟩ := Prod.mk.inj (Except.ok.inj taken)
      refine ⟨?_, eq_extract_append_extract enough⟩
      rw [ByteArray.size_extract, Nat.min_eq_left enough, Nat.sub_zero]
  · cases taken

theorem canonical_number (width : Nat) : Canonical (takeNumber width) (encodeNumber width) := by
  intro bytes value rest done
  obtain ⟨⟨part, behind⟩, taken, read⟩ := exists_of_bind_ok done
  obtain ⟨rfl, rfl⟩ := Prod.mk.inj (Except.ok.inj read)
  obtain ⟨size, whole⟩ := of_takeBytes taken
  have back := Bytes.littleEndian_ofLittleEndian (Bytes.toList part)
  have length : (Bytes.toList part).length = width := size
  rw [length] at back
  have same : encodeNumber width (Bytes.ofLittleEndian (Bytes.toList part)) = part := by
    apply ByteArray.ext
    rw [encodeNumber, back, List.data_toByteArray, Bytes.toList]
  rw [whole, same]

theorem lt_of_takeNumber {value : Nat} (done : takeNumber width bytes = .ok (value, rest)) :
    value < 256 ^ width := by
  obtain ⟨⟨part, behind⟩, taken, read⟩ := exists_of_bind_ok done
  obtain ⟨rfl, rfl⟩ := Prod.mk.inj (Except.ok.inj read)
  have length : (Bytes.toList part).length = width := (of_takeBytes taken).1
  exact length ▸ Bytes.ofLittleEndian_lt (Bytes.toList part)

theorem canonical_word : Canonical takeWord encodeWord := by
  intro bytes value rest done
  obtain ⟨⟨number, behind⟩, taken, read⟩ := exists_of_bind_ok done
  obtain ⟨rfl, rfl⟩ := Prod.mk.inj (Except.ok.inj read)
  rw [encodeWord, UInt64.toNat_ofNat_of_lt' (lt_of_takeNumber taken)]
  exact canonical_number 8 _ _ _ taken

/-- A code is what is written for what it names. -/
theorem canonical_code {ofCode? : Nat → Option α} {codeOf : α → Nat}
    (names : ∀ code value, ofCode? code = some value → codeOf value = code) :
    Canonical (takeCode ofCode?) fun value => encodeNumber 4 (codeOf value) := by
  intro bytes value rest done
  obtain ⟨⟨code, behind⟩, taken, read⟩ := exists_of_bind_ok done
  dsimp only at read
  split at read
  · next named found =>
      obtain ⟨rfl, rfl⟩ := Prod.mk.inj (Except.ok.inj read)
      dsimp only
      rw [names code _ found]
      exact canonical_number 4 _ _ _ taken
  · cases read

theorem canonical_operation :
    Canonical (takeCode operationOfCode?) fun operation => encodeNumber 4 (operationCode operation) := by
  apply canonical_code
  intro code operation found
  unfold operationOfCode? at found
  split at found <;> cases found <;> rfl

theorem canonical_status :
    Canonical (takeCode statusOfCode?) fun status => encodeNumber 4 (statusCode status) := by
  apply canonical_code
  intro code status found
  unfold statusOfCode? at found
  split at found <;> cases found <;> rfl

theorem canonical_string : Canonical takeString encodeString := by
  intro bytes value rest done
  obtain ⟨⟨length, behind⟩, taken, read⟩ := exists_of_bind_ok done
  obtain ⟨rfl, rfl⟩ := of_takeBytes read
  rw [encodeString, ByteArray.append_assoc]
  exact canonical_number 8 _ _ _ taken

theorem canonical_option (canonical : Canonical decode encode) :
    Canonical (takeOption decode) (encodeOption encode) := by
  intro bytes value rest done
  unfold takeOption at done
  split at done
  · cases done
  · next behind tag =>
      obtain ⟨rfl, rfl⟩ := Prod.mk.inj (Except.ok.inj done)
      exact canonical_number 1 _ _ _ tag
  · next behind tag =>
      cases taken : decode behind with
      | error error =>
          rw [taken] at done
          cases done
      | ok result =>
          rw [taken] at done
          obtain ⟨rfl, rfl⟩ := Prod.mk.inj (Except.ok.inj done)
          have inside := canonical _ _ _ taken
          rw [encodeOption, ByteArray.append_assoc, ← inside]
          exact canonical_number 1 _ _ _ tag
  · cases done

theorem canonical_list (canonical : Canonical decode encode) {values : List α}
    (done : takeList decode count bytes = .ok (values, rest)) :
    values.length = count ∧ bytes = encodeList encode values ++ rest := by
  induction count generalizing bytes values with
  | zero =>
      obtain ⟨rfl, rfl⟩ := Prod.mk.inj (Except.ok.inj done)
      rw [encodeList, ByteArray.empty_append]
      exact ⟨rfl, rfl⟩
  | succ count ih =>
      unfold takeList at done
      dsimp only at done
      split at done
      · cases done
      · next value behind taken =>
          cases others : takeList decode count behind with
          | error error =>
              rw [others] at done
              cases done
          | ok result =>
              rw [others] at done
              obtain ⟨rfl, rfl⟩ := Prod.mk.inj (Except.ok.inj done)
              obtain ⟨length, inside⟩ := ih others
              refine ⟨congrArg (· + 1) length, ?_⟩
              rw [encodeList, ByteArray.append_assoc, ← inside]
              exact canonical _ _ _ taken

theorem canonical_key : Canonical takeKey fun key => encodeString key.bytes.toByteArray := by
  intro bytes value rest done
  obtain ⟨⟨length, behind⟩, taken, read⟩ := exists_of_bind_ok done
  dsimp only at read
  split at read
  · cases read
  · obtain ⟨⟨part, last⟩, content, same⟩ := exists_of_bind_ok read
    obtain ⟨rfl, rfl⟩ := Prod.mk.inj (Except.ok.inj same)
    obtain ⟨rfl, rfl⟩ := of_takeBytes content
    dsimp only
    rw [Bytes.toByteArray_toList, encodeString, ByteArray.append_assoc]
    exact canonical_number 8 _ _ _ taken

theorem canonical_remoteKey : Canonical takeRemoteKey encodeRemoteKey := by
  intro bytes value rest done
  obtain ⟨⟨address, behind⟩, taken, read⟩ := exists_of_bind_ok done
  obtain ⟨⟨key, last⟩, word, same⟩ := exists_of_bind_ok read
  obtain ⟨rfl, rfl⟩ := Prod.mk.inj (Except.ok.inj same)
  rw [encodeRemoteKey, ByteArray.append_assoc, ← canonical_word _ _ _ word]
  exact canonical_string _ _ _ taken

theorem canonical_location : Canonical takeLocation encodeLocation := by
  intro bytes value rest done
  obtain ⟨⟨node, behind⟩, number, read⟩ := exists_of_bind_ok done
  obtain ⟨⟨base, behind⟩, first, read⟩ := exists_of_bind_ok read
  obtain ⟨⟨length, behind⟩, second, read⟩ := exists_of_bind_ok read
  obtain ⟨⟨count, behind⟩, counted, read⟩ := exists_of_bind_ok read
  dsimp only at read
  split at read
  · cases read
  · obtain ⟨⟨remoteKeys, behind⟩, listed, read⟩ := exists_of_bind_ok read
    obtain ⟨⟨offset, behind⟩, third, read⟩ := exists_of_bind_ok read
    obtain ⟨⟨window, last⟩, fourth, same⟩ := exists_of_bind_ok read
    obtain ⟨rfl, rfl⟩ := Prod.mk.inj (Except.ok.inj same)
    obtain ⟨rfl, list⟩ := canonical_list canonical_remoteKey listed
    have word : (UInt32.ofNat node).toNat = node :=
      UInt32.toNat_ofNat_of_lt' (lt_of_takeNumber number)
    simp only [encodeLocation, ByteArray.append_assoc, word]
    rw [← canonical_word _ _ _ fourth, ← canonical_word _ _ _ third, ← list,
      ← canonical_number 8 _ _ _ counted, ← canonical_word _ _ _ second,
      ← canonical_word _ _ _ first]
    exact canonical_number 4 _ _ _ number

/-- **A request that was read is what stands in the bytes.** -/
theorem canonical_request : Canonical takeRequest encodeRequest := by
  intro bytes value rest done
  obtain ⟨⟨id, behind⟩, word, read⟩ := exists_of_bind_ok done
  obtain ⟨⟨operation, behind⟩, code, read⟩ := exists_of_bind_ok read
  obtain ⟨⟨key, behind⟩, name, read⟩ := exists_of_bind_ok read
  obtain ⟨⟨payload, behind⟩, content, read⟩ := exists_of_bind_ok read
  obtain ⟨⟨location, last⟩, place, same⟩ := exists_of_bind_ok read
  obtain ⟨rfl, rfl⟩ := Prod.mk.inj (Except.ok.inj same)
  simp only [encodeRequest, ByteArray.append_assoc]
  rw [← canonical_option canonical_location _ _ _ place,
    ← canonical_option canonical_string _ _ _ content, ← canonical_key _ _ _ name,
    ← canonical_operation _ _ _ code]
  exact canonical_word _ _ _ word

theorem canonical_text : Canonical takeText fun text => encodeString text.toUTF8 := by
  intro bytes value rest done
  obtain ⟨⟨content, behind⟩, taken, read⟩ := exists_of_bind_ok done
  dsimp only at read
  split at read
  · next text valid =>
      obtain ⟨rfl, rfl⟩ := Prod.mk.inj (Except.ok.inj read)
      have back : text.toUTF8 = content := by
        unfold String.fromUTF8? at valid
        split at valid
        · exact congrArg String.toUTF8 (Option.some.inj valid).symm
        · cases valid
      dsimp only
      rw [back]
      exact canonical_string _ _ _ taken
  · cases read

/-- **A response that was read is what stands in the bytes.** -/
theorem canonical_response : Canonical takeResponse encodeResponse := by
  intro bytes value rest done
  obtain ⟨⟨id, behind⟩, word, read⟩ := exists_of_bind_ok done
  obtain ⟨⟨status, behind⟩, code, read⟩ := exists_of_bind_ok read
  obtain ⟨⟨payload, behind⟩, content, read⟩ := exists_of_bind_ok read
  obtain ⟨⟨length, behind⟩, size, read⟩ := exists_of_bind_ok read
  obtain ⟨⟨message, last⟩, text, same⟩ := exists_of_bind_ok read
  obtain ⟨rfl, rfl⟩ := Prod.mk.inj (Except.ok.inj same)
  simp only [encodeResponse, ByteArray.append_assoc]
  rw [← canonical_text _ _ _ text, ← canonical_word _ _ _ size,
    ← canonical_option canonical_string _ _ _ content, ← canonical_status _ _ _ code]
  exact canonical_word _ _ _ word

/-- A request of a frame holds no more bytes than a frame. -/
theorem sizes_of_holds {frame : ByteArray} {request : Request}
    (holds : Holds requests frame request) : request.key.length ≤ maxFrameLength ∧
      ∀ payload ∈ request.payload, payload.size ≤ maxFrameLength := by
  obtain ⟨body, leftover, framed, decoded⟩ := holds
  have short := (frameBody_eq_ok_iff.mp framed).1
  have whole := canonical_request _ _ _ decoded
  have size : (encodeRequest request).size ≤ maxFrameLength := by
    rw [whole, ByteArray.size_append] at short
    exact Nat.le_trans (Nat.le_add_right _ _) short
  simp only [encodeRequest, ByteArray.size_append, size_encodeString, List.size_toByteArray] at size
  refine ⟨by unfold Key.length; omega, fun payload present => ?_⟩
  have part : (encodeString payload).size ≤ (encodeOption encodeString request.payload).size :=
    size_le_size_encodeOption present
  rw [size_encodeString] at part
  omega

end LeaseCache.Wire
