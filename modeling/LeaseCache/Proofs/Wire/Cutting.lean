import LeaseCache.Proofs.Wire.Framing

/-!
# Streams that are cut off

A connection can end at any byte. What has arrived by then of a row of frames is
some of them whole and a part of the next one (`CutOff`, `exists_cutOff`). Reading
it gives the messages of the whole frames and then an error, unless the cut falls
into the length in front of the next frame: fewer than four bytes look like the end
of the stream (`reportsCuts_streams`, `silent_inside_length`).
-/

set_option autoImplicit false

namespace LeaseCache.Wire

variable {α : Type} {format : Format α} {body part missing stream lost : ByteArray}
  {frames : List ByteArray} {messages : List α} {whole : Nat}

/-! ## Where a cut falls -/

/-- Some bytes are a part of a frame, and at least one byte of the frame is missing. -/
def PartOf (part frame : ByteArray) : Prop := ∃ missing, frame = part ++ missing ∧ 0 < missing.size

/-- What arrived of a row of frames: so many of them whole, and then a part of the next one. The
part is empty if the cut fell between two frames, and if nothing was cut off. -/
structure CutOff (frames : List ByteArray) (stream : ByteArray) (whole : Nat) (part : ByteArray) :
    Prop where
  arrived : stream = joined (frames.take whole) ++ part
  inside : part = .empty ∨ ∃ frame, frames[whole]? = some frame ∧ PartOf part frame

/-- Of two splits of one byte string, the front of one begins with the front of the other. -/
theorem split_cases {front behind first second : ByteArray}
    (same : front ++ behind = first ++ second) :
    (∃ between, first = front ++ between ∧ behind = between ++ second) ∨
      ∃ between, front = first ++ between ∧ second = between ++ behind := by
  have arrays : front.data ++ behind.data = first.data ++ second.data := by
    rw [← ByteArray.data_append, ← ByteArray.data_append, same]
  rcases Array.append_eq_append_iff.mp arrays with ⟨between, left, right⟩ | ⟨between, left, right⟩
  · refine .inl ⟨⟨between⟩, ByteArray.ext ?_, ByteArray.ext ?_⟩ <;> rwa [ByteArray.data_append]
  · refine .inr ⟨⟨between⟩, ByteArray.ext ?_, ByteArray.ext ?_⟩ <;> rwa [ByteArray.data_append]

/-- Every beginning of a row of frames is some of them whole and a part of the next one. -/
theorem exists_cutOff (cut : stream ++ lost = joined frames) :
    ∃ whole part, CutOff frames stream whole part := by
  induction frames generalizing stream with
  | nil =>
      have sizes := congrArg ByteArray.size cut
      rw [ByteArray.size_append, joined, encodeList, ByteArray.size_empty] at sizes
      have empty : stream = .empty := ByteArray.size_eq_zero_iff.mp (by omega)
      exact ⟨0, .empty, empty, .inl rfl⟩
  | cons frame frames ih =>
      rcases split_cases (show stream ++ lost = frame ++ joined frames from cut) with
        ⟨missing, held, -⟩ | ⟨behind, held, cut⟩
      · -- The cut falls into the first frame, or right behind it.
        by_cases all : missing.size = 0
        · refine ⟨1, .empty, ?_, .inl rfl⟩
          have none : missing = .empty := ByteArray.size_eq_zero_iff.mp all
          rw [none, ByteArray.append_empty] at held
          rw [ByteArray.append_empty, List.take_succ_cons, List.take_zero, held]
          exact ByteArray.append_empty.symm
        · refine ⟨0, stream, ?_, .inr ⟨frame, rfl, missing, held, Nat.pos_of_ne_zero all⟩⟩
          exact ByteArray.empty_append.symm
      · obtain ⟨whole, part, arrived, inside⟩ := ih cut.symm
        refine ⟨whole + 1, part, ?_, inside⟩
        rw [held, arrived, List.take_succ_cons, ← ByteArray.append_assoc]
        rfl

/-! ## What a cut stream gives -/

/-- A stream ends without an error exactly if fewer than four bytes are left. -/
theorem readFrame_eq_none_iff : readFrame format stream = .ok none ↔ stream.size < 4 := by
  constructor
  · intro read
    by_contra long
    unfold readFrame at read
    rw [if_neg long] at read
    dsimp only at read
    split at read
    · cases read
    · split at read
      · cases read
      · split at read <;> cases read
  · intro short
    rw [readFrame, if_pos short]

/-- A frame that is cut behind its length is found to be cut. -/
theorem readFrame_of_partOf {frame : ByteArray} (framed : frameBody body = .ok frame)
    (cut : PartOf part frame) (long : 4 ≤ part.size) :
    readFrame format part = .error .truncated := by
  obtain ⟨missing, split, lost⟩ := cut
  obtain ⟨short, rfl⟩ := frameBody_eq_ok_iff.mp framed
  have head : (Bytes.bigEndian 4 body.size).toByteArray.size = 4 := by
    rw [List.size_toByteArray, Bytes.length_bigEndian]
  have sizes := congrArg ByteArray.size split
  rw [ByteArray.size_append, ByteArray.size_append, head] at sizes
  have length : part.extract 0 4 = (Bytes.bigEndian 4 body.size).toByteArray := by
    have fronts := eq_extract_append_extract long
    rw [fronts, ByteArray.append_assoc] at split
    refine (ByteArray.append_inj_left split ?_).symm
    rw [head, ByteArray.size_extract]
    omega
  have cut : (part.extract 4 part.size).size < body.size := by
    rw [ByteArray.size_extract]
    omega
  rw [readFrame, if_neg (Nat.not_lt_of_le long), length, ofBigEndian_length short]
  dsimp only
  rw [if_neg (Nat.not_lt_of_le short), if_pos cut]

/-- A part of a frame gives no message, and an error if its length is complete. -/
theorem readFrames_part
    (inside : part = .empty ∨ ∃ body frame, frameBody body = .ok frame ∧ PartOf part frame) :
    readFrames format part = ([], if part.size < 4 then none else some .truncated) := by
  by_cases tiny : part.size < 4
  · have ended : readFrame format part = .ok none := readFrame_eq_none_iff.mpr tiny
    rw [readFrames, if_pos tiny]
    split
    · next failed => cases ended.symm.trans failed
    · rfl
    · next found => cases ended.symm.trans found
  · have failed : readFrame format part = .error .truncated := by
      rcases inside with rfl | ⟨body, frame, framed, cut⟩
      · exact absurd (by decide) tiny
      · exact readFrame_of_partOf framed cut (Nat.le_of_not_lt tiny)
    rw [readFrames, if_neg tiny]
    split
    · next error other =>
        cases failed.symm.trans other
        rfl
    · next ended => cases failed.symm.trans ended
    · next found => cases failed.symm.trans found

/-- Reading what arrived of the frames of some messages. -/
theorem Faithful.readFrames_cutOff (faithful : Faithful format)
    (written : List.Forall₂ (fun message frame => writeFrame format message = .ok frame)
      messages frames) (cut : CutOff frames stream whole part) :
    readFrames format stream =
      (messages.take whole, if part.size < 4 then none else some .truncated) := by
  have hold : List.Forall₂ (Holds format) frames messages :=
    written.flip.imp fun _ _ => faithful.holds
  have inside : part = .empty ∨ ∃ body frame, frameBody body = .ok frame ∧ PartOf part frame := by
    refine cut.inside.imp_right fun ⟨frame, next, part⟩ => ?_
    obtain ⟨index, rfl⟩ := List.getElem?_eq_some_iff.mp next
    exact ⟨_, _, written.get (written.length_eq ▸ index) index, part⟩
  have read := Wire.readFrames_joined (List.forall₂_take whole hold) part
  rwa [← cut.arrived, readFrames_part inside, List.append_nil] at read

/-- What a format promises to those who read a stream that may have been cut off. -/
structure ReportsCuts (format : Format α) (stream : ByteArray) : Prop where
  /-- If the stream is the beginning of a row of frames, then some of them arrived whole and a part
  of the next one. -/
  located : ∀ frames lost, stream ++ lost = joined frames →
    ∃ whole part, CutOff frames stream whole part
  /-- The messages whose frames arrived whole are read, and then the cut is reported, unless fewer
  than four bytes of the next frame arrived. -/
  read : ∀ messages frames,
    List.Forall₂ (fun message frame => writeFrame format message = .ok frame) messages frames →
    ∀ whole part, CutOff frames stream whole part →
      readFrames format stream =
        (messages.take whole, if part.size < 4 then none else some .truncated)
  /-- A stream has ended as far as a reader can tell exactly if less than a length is left. -/
  ended : readFrame format stream = .ok none ↔ stream.size < 4

theorem Faithful.reportsCuts (faithful : Faithful format) (stream : ByteArray) :
    ReportsCuts format stream where
  located _ _ cut := exists_cutOff cut
  read _ _ written _ _ cut := faithful.readFrames_cutOff written cut
  ended := readFrame_eq_none_iff

/-- **A stream that is cut off gives the messages that arrived whole and then an error, unless
the cut falls into the length of the next frame or in front of it.** -/
theorem reportsCuts_streams (stream : ByteArray) :
    ReportsCuts requests stream ∧ ReportsCuts responses stream :=
  ⟨faithful_requests.reportsCuts stream, faithful_responses.reportsCuts stream⟩

/-- A request without a key or a payload. -/
def ping : Request := ⟨1, .ping, ⟨[]⟩, none, none⟩

/-- A stream that is cut inside the length of its second frame seems to end behind the first. -/
theorem silent_inside_length : ∃ frame, writeFrame requests ping = .ok frame ∧
    joined [frame, frame] = (frame ++ frame.extract 0 2) ++ frame.extract 2 frame.size ∧
    0 < (frame.extract 0 2).size ∧ 0 < (frame.extract 2 frame.size).size ∧
    readFrames requests (frame ++ frame.extract 0 2) = ([ping], none) := by
  obtain ⟨frame, written⟩ : ∃ frame, writeFrame requests ping = .ok frame :=
    writeFrame_ok_iff.mpr (by decide)
  have long : 2 < frame.size := by
    rw [(frameBody_eq_ok_iff.mp written).2, ByteArray.size_append, List.size_toByteArray,
      Bytes.length_bigEndian]
    omega
  have halves := eq_extract_append_extract (show 2 ≤ frame.size by omega)
  have start : (frame.extract 0 2).size = 2 := by
    rw [ByteArray.size_extract]
    omega
  have behind : 0 < (frame.extract 2 frame.size).size := by
    rw [ByteArray.size_extract]
    omega
  have cut : CutOff [frame, frame] (frame ++ frame.extract 0 2) 1 (frame.extract 0 2) := by
    refine ⟨?_, .inr ⟨frame, rfl, _, halves, behind⟩⟩
    rw [List.take_succ_cons, List.take_zero, joined, encodeList, encodeList,
      ByteArray.append_empty, id]
  have read := faithful_requests.readFrames_cutOff (.cons written (.cons written .nil)) cut
  refine ⟨frame, written, ?_, by omega, behind, ?_⟩
  · rw [ByteArray.append_assoc, ← halves, joined, encodeList, encodeList, encodeList,
      ByteArray.append_empty, id]
  · rw [read, if_pos (by omega), List.take_succ_cons, List.take_zero]

end LeaseCache.Wire
