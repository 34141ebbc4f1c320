import LeaseCache.Proofs.Wire.Records
import LeaseCache.Wire.Frame
import Mathlib.Data.List.Forall2

/-!
# Streams of frames

A frame holds a message if its body begins with the record of the message
(`Holds`). Reading a frame off a stream finds a message exactly if a frame that
holds it stands in front (`readFrame_eq_some_iff`). So every stream is a row of
frames and a rest that no frame stands in front of (`exists_framing`), and reading
a row of frames gives their messages and then whatever the rest gives
(`readFrames_joined`).

Requests and responses come back from their frames as they were
(`roundTrips_streams`).
-/

set_option autoImplicit false

namespace LeaseCache.Wire

variable {α : Type} {format : Format α} {message : α} {body frame stream rest : ByteArray}

/-! ## One frame -/

/-- A frame holds a message: its body begins with the record of the message. -/
def Holds (format : Format α) (frame : ByteArray) (message : α) : Prop :=
  ∃ body leftover, frameBody body = .ok frame ∧ format.decode body = .ok (message, leftover)

/-- No frame that holds a message stands in front of a stream. -/
def Unframed (format : Format α) (stream : ByteArray) : Prop :=
  ∀ frame message rest, Holds format frame message → stream ≠ frame ++ rest

/-- A body has a frame exactly if it is not too long. -/
theorem frameBody_eq_ok_iff : frameBody body = .ok frame ↔
    body.size ≤ maxFrameLength ∧ frame = (Bytes.bigEndian 4 body.size).toByteArray ++ body := by
  unfold frameBody
  split
  · next long =>
      refine ⟨fun framed => (by cases framed), fun framed => ?_⟩
      exact absurd framed.1 (Nat.not_le_of_lt long)
  · next short =>
      rw [Except.ok.injEq, eq_comm]
      exact (and_iff_right (Nat.le_of_not_lt short)).symm

/-- The length in front of a body is read back. -/
theorem ofBigEndian_length (short : body.size ≤ maxFrameLength) :
    Bytes.ofBigEndian (Bytes.toList (Bytes.bigEndian 4 body.size).toByteArray) = body.size := by
  have room : body.size < 256 ^ 4 := Nat.lt_of_le_of_lt short (by decide)
  rw [Bytes.toList_toByteArray, Bytes.ofBigEndian, Bytes.bigEndian, List.reverse_reverse,
    Bytes.ofLittleEndian_littleEndian, Nat.mod_eq_of_lt room]

/-- Four bytes are the length that they are read as. -/
theorem bigEndian_ofBigEndian {head : ByteArray} (four : head.size = 4) :
    (Bytes.bigEndian 4 (Bytes.ofBigEndian (Bytes.toList head))).toByteArray = head := by
  have length : head.data.toList.reverse.length = 4 := by
    rw [List.length_reverse, Array.length_toList]
    exact four
  have back := Bytes.littleEndian_ofLittleEndian head.data.toList.reverse
  rw [length] at back
  apply ByteArray.ext
  rw [List.data_toByteArray, Bytes.bigEndian, Bytes.ofBigEndian, Bytes.toList, back,
    List.reverse_reverse]

/-- What a body in front of a stream is read as is up to its record. -/
theorem readFrame_frameBody (framed : frameBody body = .ok frame) (rest : ByteArray) :
    readFrame format (frame ++ rest) =
      match format.decode body with
      | .error error => .error (.undecodable error)
      | .ok (message, _) => .ok (some (message, rest)) := by
  obtain ⟨short, rfl⟩ := frameBody_eq_ok_iff.mp framed
  have head : (Bytes.bigEndian 4 body.size).toByteArray.size = 4 := by
    rw [List.size_toByteArray, Bytes.length_bigEndian]
  have whole : ((Bytes.bigEndian 4 body.size).toByteArray ++ (body ++ rest)).size =
      4 + (body.size + rest.size) := by
    rw [ByteArray.size_append, ByteArray.size_append, head]
  have long : ¬ 4 + (body.size + rest.size) < 4 := by omega
  have enough : ¬ body.size + rest.size < body.size := by omega
  rw [ByteArray.append_assoc, readFrame, whole, if_neg long,
    ByteArray.extract_append_eq_left head.symm,
    ByteArray.extract_append_eq_right head.symm (by rw [head, ByteArray.size_append]),
    ofBigEndian_length short]
  dsimp only
  cases decoded : format.decode body with
  | _ =>
      rw [if_neg (Nat.not_lt_of_le short), ByteArray.size_append, if_neg enough,
        ByteArray.extract_append_eq_left rfl, ByteArray.extract_append_eq_right rfl rfl, decoded]

/-- A frame in front of a stream is taken off, and its message is read. -/
theorem readFrame_append (holds : Holds format frame message) (rest : ByteArray) :
    readFrame format (frame ++ rest) = .ok (some (message, rest)) := by
  obtain ⟨body, leftover, framed, decoded⟩ := holds
  rw [readFrame_frameBody framed, decoded]

/-- A byte string is the first few of its bytes and the others. -/
theorem eq_extract_append_extract {bytes : ByteArray} {count : Nat} (enough : count ≤ bytes.size) :
    bytes = bytes.extract 0 count ++ bytes.extract count bytes.size := by
  rw [ByteArray.extract_append_extract, Nat.min_eq_left (Nat.zero_le count),
    Nat.max_eq_right enough, ByteArray.extract_zero_size]

/-- **What is read off a stream is the message of the frame in front of it.** -/
theorem readFrame_eq_some_iff : readFrame format stream = .ok (some (message, rest)) ↔
    ∃ frame, Holds format frame message ∧ stream = frame ++ rest := by
  constructor
  · intro read
    unfold readFrame at read
    by_cases tiny : stream.size < 4
    · rw [if_pos tiny] at read
      cases read
    rw [if_neg tiny] at read
    dsimp only at read
    have head : (stream.extract 0 4).size = 4 := by
      rw [ByteArray.size_extract]
      omega
    have halves := eq_extract_append_extract (Nat.le_of_not_lt tiny)
    have length := bigEndian_ofBigEndian head
    generalize stream.extract 4 stream.size = behind at read halves
    generalize Bytes.ofBigEndian (Bytes.toList (stream.extract 0 4)) = announced at read length
    by_cases short : announced ≤ maxFrameLength
    · rw [if_neg (Nat.not_lt_of_le short)] at read
      by_cases enough : announced ≤ behind.size
      · rw [if_neg (Nat.not_lt_of_le enough)] at read
        have size : (behind.extract 0 announced).size = announced := by
          rw [ByteArray.size_extract]
          omega
        have parts := eq_extract_append_extract enough
        cases decoded : format.decode (behind.extract 0 announced) with
        | error error =>
            rw [decoded] at read
            cases read
        | ok result =>
            rw [decoded] at read
            obtain ⟨rfl, rfl⟩ := Prod.mk.inj (Option.some.inj (Except.ok.inj read))
            have framed : frameBody (behind.extract 0 announced) =
                .ok (stream.extract 0 4 ++ behind.extract 0 announced) := by
              rw [frameBody_eq_ok_iff, size, length]
              exact ⟨short, rfl⟩
            refine ⟨_, ⟨_, _, framed, decoded⟩, ?_⟩
            rw [ByteArray.append_assoc, ← parts]
            exact halves
      · rw [if_pos (Nat.lt_of_not_le enough)] at read
        cases read
    · rw [if_pos (Nat.lt_of_not_le short)] at read
      cases read
  · rintro ⟨frame, holds, rfl⟩
    exact readFrame_append holds rest

/-! ## Rows of frames -/

/-- Frames, one behind the other. -/
def joined (frames : List ByteArray) : ByteArray := encodeList id frames

theorem joined_singleton (frame : ByteArray) : joined [frame] = frame := by
  rw [joined, encodeList, encodeList, id, ByteArray.append_empty]

theorem readFrames_of_some (read : readFrame format stream = .ok (some (message, rest))) :
    readFrames format stream =
      (message :: (readFrames format rest).1, (readFrames format rest).2) := by
  rw [readFrames]
  split
  · next failed => cases read.symm.trans failed
  · next ended => cases read.symm.trans ended
  · next first behind found =>
      obtain ⟨rfl, rfl⟩ := Prod.mk.inj (Option.some.inj (Except.ok.inj (read.symm.trans found)))
      rfl

/-- A stream that no frame stands in front of has no messages. -/
theorem readFrames_of_unframed (unframed : Unframed format stream) :
    (readFrames format stream).1 = [] := by
  rw [readFrames]
  split
  · rfl
  · rfl
  · next message rest found =>
      obtain ⟨frame, holds, same⟩ := readFrame_eq_some_iff.mp found
      exact absurd same (unframed frame message rest holds)

/-- **Reading a row of frames gives their messages, and then what the rest gives.** -/
theorem readFrames_joined {frames : List ByteArray} {messages : List α}
    (hold : List.Forall₂ (Holds format) frames messages) (rest : ByteArray) :
    readFrames format (joined frames ++ rest) =
      (messages ++ (readFrames format rest).1, (readFrames format rest).2) := by
  induction hold with
  | nil => rw [joined, encodeList, ByteArray.empty_append, List.nil_append]
  | @cons frame message frames messages holds hold ih =>
      have row : joined (frame :: frames) ++ rest = frame ++ (joined frames ++ rest) :=
        ByteArray.append_assoc
      rw [row, readFrames_of_some (readFrame_append holds _), ih, List.cons_append]

/-- **Every stream is a row of frames and a rest that no frame stands in front of**, and its
messages are those of the frames. -/
theorem exists_framing (format : Format α) (stream : ByteArray) :
    ∃ frames rest, stream = joined frames ++ rest ∧
      List.Forall₂ (Holds format) frames (readFrames format stream).1 ∧ Unframed format rest := by
  induction size : stream.size using Nat.strongRecOn generalizing stream with
  | _ size ih =>
      subst size
      by_cases framed : ∃ message rest, readFrame format stream = .ok (some (message, rest))
      · obtain ⟨message, rest, read⟩ := framed
        obtain ⟨frame, holds, rfl⟩ := readFrame_eq_some_iff.mp read
        obtain ⟨frames, last, rfl, hold, unframed⟩ :=
          ih rest.size (size_rest_lt_of_readFrame read) rest rfl
        refine ⟨frame :: frames, last, ByteArray.append_assoc.symm, ?_, unframed⟩
        rw [readFrames_of_some read]
        exact .cons holds hold
      · have unframed : Unframed format stream := by
          intro frame message rest holds same
          exact framed ⟨message, rest, readFrame_eq_some_iff.mpr ⟨frame, holds, same⟩⟩
        refine ⟨[], stream, ?_, ?_, unframed⟩
        · rw [joined, encodeList, ByteArray.empty_append]
        · rw [readFrames_of_unframed unframed]
          exact .nil

/-! ## Messages and their frames -/

/-- A format reads back every record that is short enough for a frame. -/
def Faithful (format : Format α) : Prop :=
  ∀ message, (format.encode message).size ≤ maxFrameLength →
    Reads format.decode (format.encode message) message

theorem faithful_requests : Faithful requests := fun _ short => reads_request short

theorem faithful_responses : Faithful responses := fun _ short => reads_response short

/-- The frame of a message holds it. -/
theorem Faithful.holds (faithful : Faithful format) (written : writeFrame format message = .ok frame) :
    Holds format frame message := by
  have short := (frameBody_eq_ok_iff.mp written).1
  have decoded := faithful message short .empty
  rw [ByteArray.append_empty] at decoded
  exact ⟨format.encode message, .empty, written, decoded⟩

theorem writeFrame_ok_iff : (∃ frame, writeFrame format message = .ok frame) ↔
    (format.encode message).size ≤ maxFrameLength := by
  constructor
  · rintro ⟨frame, written⟩
    exact (frameBody_eq_ok_iff.mp written).1
  · intro short
    exact ⟨_, frameBody_eq_ok_iff.mpr ⟨short, rfl⟩⟩

/-- Messages whose records are not too long have frames. -/
theorem exists_frames {messages : List α}
    (short : ∀ message ∈ messages, (format.encode message).size ≤ maxFrameLength) :
    ∃ frames, List.Forall₂ (fun message frame => writeFrame format message = .ok frame)
      messages frames := by
  induction messages with
  | nil => exact ⟨[], .nil⟩
  | cons message messages ih =>
      obtain ⟨frame, written⟩ := writeFrame_ok_iff.mpr (short message List.mem_cons_self)
      obtain ⟨frames, others⟩ := ih fun other member => short other (List.mem_cons_of_mem _ member)
      exact ⟨frame :: frames, .cons written others⟩

/-- What a format promises to those who send its messages as a stream of frames. -/
structure RoundTrips (format : Format α) : Prop where
  /-- A message has a frame exactly if its record is not too long. -/
  written : ∀ message, (∃ frame, writeFrame format message = .ok frame) ↔
    (format.encode message).size ≤ maxFrameLength
  /-- Messages whose records are not too long come back from the row of their frames, all of them
  and in order, and then the stream has ended. -/
  read : ∀ messages, (∀ message ∈ messages, (format.encode message).size ≤ maxFrameLength) →
    ∃ frames, List.Forall₂ (fun message frame => writeFrame format message = .ok frame)
      messages frames ∧ readFrames format (joined frames) = (messages, none)

/-- Frames that were written for messages give the messages and then the end of the stream. -/
theorem Faithful.readFrames_joined (faithful : Faithful format) {messages : List α}
    {frames : List ByteArray}
    (written : List.Forall₂ (fun message frame => writeFrame format message = .ok frame)
      messages frames) : readFrames format (joined frames) = (messages, none) := by
  have hold : List.Forall₂ (Holds format) frames messages :=
    written.flip.imp fun _ _ => faithful.holds
  have ended : readFrames format .empty = ([], none) := by
    rw [readFrames]
    rfl
  have read := Wire.readFrames_joined hold .empty
  rwa [ByteArray.append_empty, ended, List.append_nil] at read

/-- **Streams of requests and streams of responses come back as they were sent.** -/
theorem roundTrips_streams : RoundTrips requests ∧ RoundTrips responses := by
  have roundTrips : ∀ {α : Type} {format : Format α}, Faithful format → RoundTrips format := by
    intro α format faithful
    refine ⟨fun message => writeFrame_ok_iff, fun messages short => ?_⟩
    obtain ⟨frames, written⟩ := exists_frames short
    exact ⟨frames, written, faithful.readFrames_joined written⟩
  exact ⟨roundTrips faithful_requests, roundTrips faithful_responses⟩

end LeaseCache.Wire
